import Mathlib.Algebra.Ring.Int.Defs
import Takings.Engine
import Takings.Proofs.EnvironmentNumbers
import Takings.Proofs.RecordColumns
import Takings.Proofs.RecordValues

/-!
# The entries of the hourly trend

Every hour of the day has one entry, which the rows of that hour make in their order and no other
row. What is shown are the entries from one of the hours that are set to the other, each with its
hour on a clock and its totals.
-/
namespace Takings

open Json

namespace Report

/-- A row has the columns of a value. Without an hour it has none, without orders it has zero. -/
structure HourlyRow.Shows (r : HourlyRow) (v : Json) : Prop where
  hour : ∀ n, r.hour = some n ↔ record.column? v "hour" = some (.int n)
  totalSales : r.totalSales.getD .zero = amountOf (record.column? v "total_sales")
  totalOrders : Json.int r.totalOrders = (record.column? v "total_orders").getD (.int 0)

/-- A value shows an entry: its hour, as a number and in two digits on a clock, and its totals. -/
structure HourlyPoint.IsShownBy (p : HourlyPoint) (v : Json) : Prop where
  hour : v.member? "hour" = some (.int p.hour)
  label : ∃ text, v.member? "label" = some (.str text) ∧
    text.toList = [Nat.digitChar (p.hour / 10), Nat.digitChar (p.hour % 10), ':', '0', '0']
  totalSales : v.member? "totalSales" = some (.number p.totalSales)
  totalOrders : v.member? "totalOrders" = some (.int p.totalOrders)

namespace HourlyRow

def IsAt (r : HourlyRow) (hour : Nat) : Prop :=
  r.hour = some (hour : Int)

instance (r : HourlyRow) (hour : Nat) : Decidable (r.IsAt hour) :=
  inferInstanceAs (Decidable (_ = _))

def IsInDay (r : HourlyRow) : Prop :=
  ∃ hour < 24, r.IsAt hour

instance (r : HourlyRow) : Decidable r.IsInDay :=
  inferInstanceAs (Decidable (∃ hour < 24, r.IsAt hour))

/-- The rows of an hour. -/
def ofHour (hour : Nat) (rows : List HourlyRow) : List HourlyRow :=
  rows.filter fun r => r.IsAt hour

variable {r : HourlyRow} {rows rows' : List HourlyRow} {hour n : Nat}

theorem isAt_iff (h : r.hour.bind Word.narrow? = some n) : r.IsAt hour ↔ n = hour := by
  obtain ⟨i, hi, hn⟩ := Option.bind_eq_some_iff.mp h
  rw [IsAt, hi, Option.some.injEq, Word.eq_of_narrow? hn, Int.ofNat_inj]

/-- No hour of the day is too large for its word. -/
theorem not_isAt (h : r.hour.bind Word.narrow? = none) (hh : hour < 24) : ¬ r.IsAt hour := by
  intro hat
  rw [hat, Option.bind_some, Word.narrow?_of_lt (by omega)] at h
  cases h

theorem ofHour_cons : ofHour hour (r :: rows) =
    if r.IsAt hour then r :: ofHour hour rows else ofHour hour rows := by
  simp [ofHour, List.filter_cons]

theorem ofHour_filter_isInDay (h : hour < 24) :
    ofHour hour (rows.filter fun r => r.IsInDay) = ofHour hour rows := by
  rw [ofHour, ofHour, List.filter_filter]
  refine List.filter_congr fun r _ => ?_
  rw [Bool.and_eq_left_iff_imp]
  intro hat
  exact decide_eq_true ⟨hour, h, of_decide_eq_true hat⟩

/-- A single row has no order. -/
theorem ofHour_eq_of_perm (h : rows'.Perm rows) (hone : (ofHour hour rows).length ≤ 1) :
    ofHour hour rows' = ofHour hour rows := by
  have hp : (ofHour hour rows').Perm (ofHour hour rows) := h.filter _
  cases hrows : ofHour hour rows with
  | nil =>
    rw [hrows] at hp
    exact hp.eq_nil
  | cons r rest =>
    rw [hrows, List.length_cons] at hone
    rw [hrows, List.eq_nil_of_length_eq_zero (by omega : rest.length = 0)] at hp
    rw [List.eq_nil_of_length_eq_zero (by omega : rest.length = 0)]
    exact hp.eq_singleton

theorem hasValidDefaults : ∀ f ∈ record.fields, f.HasValidDefaults := by
  intro f hf
  simp only [record, List.mem_cons, List.not_mem_nil, or_false] at hf
  rcases hf with rfl | rfl | rfl
  · exact Json.Field.hasValidDefaults_optional _ Json.Kind.isValid_countOrNull_none
  · exact Json.Field.hasValidDefaults_optional _ Json.Kind.isValid_amount_none
  · exact Json.Field.hasValidDefaults_optional _ (by decide : Word.Fits 0)

theorem shows_of_read {v : Json} (h : read v = .ok r) : r.Shows v := by
  obtain ⟨⟨hour, totalSales, totalOrders, ⟨⟩⟩, hx, rfl⟩ := map_eq_ok_iff.mp h
  obtain ⟨hhour, hsales, horders, -⟩ := Record.are_of_read (by decide) (by decide) hx
  exact ⟨fun _ => Field.eq_some_iff_of_gets_count hhour, Field.getD_of_gets_amount hsales,
    Field.int_of_gets_count horders⟩

theorem fits_of_read {v : Json} (h : read v = .ok r) : Word.Fits r.totalOrders := by
  obtain ⟨⟨hour, totalSales, totalOrders, ⟨⟩⟩, hx, rfl⟩ := map_eq_ok_iff.mp h
  exact (Json.Record.areValid_read hasValidDefaults hx).2.2.1

end HourlyRow

namespace HourlyPoint

open HourlyRow

variable {p : HourlyPoint} {r : HourlyRow} {rows rows' : List HourlyRow} {hour : Nat}

/-! ### One entry -/

theorem hour_foldl_add : (rows.foldl add p).hour = p.hour := by
  induction rows generalizing p with
  | nil => rfl
  | cons r rows ih => rw [List.foldl_cons, ih, add]

/-- No sum on the way to the last one leaves the word. -/
theorem totalOrders_foldl_add
    (h : ∀ orders, orders <+: rows.map HourlyRow.totalOrders → Word.Fits (p.totalOrders + orders.sum)) :
    (rows.foldl add p).totalOrders = p.totalOrders + (rows.map HourlyRow.totalOrders).sum := by
  induction rows generalizing p with
  | nil => exact (Int.add_zero _).symm
  | cons r rows ih =>
    have hfirst := h [r.totalOrders] ⟨rows.map HourlyRow.totalOrders, rfl⟩
    rw [List.sum_singleton] at hfirst
    have hadd : (p.add r).totalOrders = p.totalOrders + r.totalOrders :=
      Word.wrapSigned_of_fits hfirst.1 hfirst.2
    rw [List.foldl_cons, ih, hadd, List.map_cons, List.sum_cons, Int.add_assoc]
    intro orders ho
    have hmore := h (r.totalOrders :: orders) (List.cons_prefix_cons.mpr ⟨rfl, ho⟩)
    rwa [List.sum_cons, ← Int.add_assoc, ← hadd] at hmore

/-- The entry that rows make of an hour. -/
def made (rows : List HourlyRow) (hour : Nat) : HourlyPoint :=
  (ofHour hour rows).foldl add (empty hour)

theorem hour_made (rows : List HourlyRow) (hour : Nat) : (made rows hour).hour = hour :=
  hour_foldl_add

theorem made_of_single (h : ofHour hour rows = [r]) (hr : Word.Fits r.totalOrders) :
    made rows hour =
      ⟨hour, cents (Binary64.zero.add (r.totalSales.getD .zero)), r.totalOrders⟩ := by
  have horders : Word.wrapSigned (0 + r.totalOrders) = r.totalOrders := by
    rw [Int.zero_add]
    exact Word.wrapSigned_of_fits hr.1 hr.2
  rw [made, h, List.foldl_cons, List.foldl_nil, add, empty, horders]

/-! ### The day -/

/-- A row is added to the entry of its hour, if it has one. -/
theorem count_map_range (f : Nat → HourlyPoint) (r : HourlyRow) :
    count ((List.range 24).map f) r =
      (List.range 24).map fun hour => if r.IsAt hour then (f hour).add r else f hour := by
  rw [count]
  cases hn : r.hour.bind Word.narrow? with
  | none =>
    refine List.map_congr_left fun hour hh => (if_neg ?_).symm
    exact not_isAt hn (List.mem_range.mp hh)
  | some n =>
    refine List.ext_getElem (by simp) fun i _ _ => ?_
    rw [List.getElem_modify, List.getElem_map, List.getElem_map, List.getElem_range]
    simp only [isAt_iff hn]

/-- The entries of a day are independent of each other. -/
theorem foldl_count (f : Nat → HourlyPoint) (rows : List HourlyRow) :
    rows.foldl count ((List.range 24).map f) =
      (List.range 24).map fun hour => (ofHour hour rows).foldl add (f hour) := by
  induction rows generalizing f with
  | nil => rfl
  | cons r rows ih =>
    rw [List.foldl_cons, count_map_range, ih]
    refine List.map_congr_left fun hour _ => ?_
    by_cases hat : r.IsAt hour
    · rw [if_pos hat, ofHour_cons, if_pos hat, List.foldl_cons]
    · rw [if_neg hat, ofHour_cons, if_neg hat]

theorem day_eq (rows : List HourlyRow) : day rows = (List.range 24).map (made rows) :=
  foldl_count empty rows

theorem made_mem_day (rows : List HourlyRow) (h : hour < 24) : made rows hour ∈ day rows := by
  rw [day_eq]
  exact List.mem_map_of_mem (List.mem_range.mpr h)

theorem eq_made_of_mem_day (h : p ∈ day rows) : p = made rows p.hour := by
  rw [day_eq] at h
  obtain ⟨hour, -, rfl⟩ := List.mem_map.mp h
  rw [hour_made]

theorem map_hour_made (rows : List HourlyRow) (hours : List Nat) :
    (hours.map (made rows)).map HourlyPoint.hour = hours := by
  rw [List.map_map]
  exact (List.map_congr_left fun hour _ => hour_made rows hour).trans (List.map_id hours)

theorem map_hour_day (rows : List HourlyRow) :
    (day rows).map HourlyPoint.hour = List.range 24 := by
  rw [day_eq, map_hour_made]

theorem hour_lt_of_mem_day (h : p ∈ day rows) : p.hour < 24 := by
  have hmem := List.mem_map_of_mem (f := HourlyPoint.hour) h
  rwa [map_hour_day, List.mem_range] at hmem

theorem toList_label (h : p.hour < 24) : p.label.toList =
    [Nat.digitChar (p.hour / 10), Nat.digitChar (p.hour % 10), ':', '0', '0'] := by
  have hpadded : ∀ hour < 24, Text.padded 2 hour =
      [Nat.digitChar (hour / 10), Nat.digitChar (hour % 10)] := by
    decide +kernel
  rw [label, String.toList_ofList, hpadded _ h]
  rfl

theorem isShownBy_toJson (h : p.hour < 24) : p.IsShownBy p.toJson := by
  constructor
  · rw [toJson, member?_object]
    rfl
  · refine ⟨p.label, ?_, toList_label h⟩
    rw [toJson, member?_object]
    rfl
  · rw [toJson, member?_object]
    rfl
  · rw [toJson, member?_object]
    rfl

theorem totalOrders_of_mem_day (hp : p ∈ day rows)
    (h : ∀ orders, orders <+: (ofHour p.hour rows).map HourlyRow.totalOrders →
      Word.Fits orders.sum) :
    p.totalOrders = ((ofHour p.hour rows).map HourlyRow.totalOrders).sum := by
  rw [eq_made_of_mem_day hp, hour_made]
  refine (totalOrders_foldl_add fun orders ho => ?_).trans (Int.zero_add _)
  rw [empty, Int.zero_add]
  exact h orders ho

theorem empty_mem_day (h : hour < 24) (hno : ofHour hour rows = []) : empty hour ∈ day rows := by
  have hm := made_mem_day rows h
  rwa [made, hno] at hm

theorem mem_day_of_single (h : hour < 24) (hr : ofHour hour rows = [r])
    (hfits : Word.Fits r.totalOrders) :
    ⟨hour, cents (Binary64.zero.add (r.totalSales.getD .zero)), r.totalOrders⟩ ∈ day rows := by
  rw [← made_of_single hr hfits]
  exact made_mem_day rows h

/-- Only the rows of each hour count. -/
theorem day_congr (h : ∀ hour < 24, ofHour hour rows = ofHour hour rows') :
    day rows = day rows' := by
  rw [day_eq, day_eq]
  refine List.map_congr_left fun hour hh => ?_
  rw [made, made, h hour (List.mem_range.mp hh)]

/-! ### The hours that are shown -/

variable {first last : Nat}

/-- The hours before, within and after a part of the day. -/
theorem range_eq_append (h : first ≤ last) (hl : last ≤ 23) :
    List.range 24 = List.range' 0 first ++
      (List.range' first (last + 1 - first) ++ List.range' (last + 1) (23 - last)) := by
  have hwithin : List.range' first (last + 1 - first) ++ List.range' (last + 1) (23 - last) =
      List.range' first (24 - first) := by
    have happend := List.range'_append_1 (s := first) (m := last + 1 - first) (n := 23 - last)
    rwa [(by omega : first + (last + 1 - first) = last + 1),
      (by omega : last + 1 - first + (23 - last) = 24 - first)] at happend
  have hall := List.range'_append_1 (s := 0) (m := first) (n := 24 - first)
  rw [Nat.zero_add, (by omega : first + (24 - first) = 24)] at hall
  rw [hwithin, hall, List.range_eq_range']

theorem ofRows_eq (h : first ≤ last) (hl : last ≤ 23) (rows : List HourlyRow) :
    ofRows ⟨first, last⟩ rows = (List.range' first (last + 1 - first)).map (made rows) := by
  have hshown : (List.range 24).filter
      ((fun p : HourlyPoint => HourWindow.contains ⟨first, last⟩ p.hour) ∘ made rows) =
      List.range' first (last + 1 - first) := by
    have hcontains : ∀ hour, ((fun p : HourlyPoint => HourWindow.contains ⟨first, last⟩ p.hour) ∘
        made rows) hour = true ↔ first ≤ hour ∧ hour ≤ last := by
      intro hour
      simp [HourWindow.contains, hour_made]
    rw [range_eq_append h hl, List.filter_append, List.filter_append]
    rw [List.filter_eq_nil_iff.mpr, List.filter_eq_self.mpr, List.filter_eq_nil_iff.mpr,
      List.nil_append, List.append_nil]
    all_goals
      intro hour hh
      rw [List.mem_range'_1] at hh
      rw [hcontains]
      omega
  rw [ofRows, day_eq, List.filter_map, hshown]

/-- The entries that are shown stand together in the day. -/
theorem take_drop_day (h : first ≤ last) (hl : last ≤ 23) (rows : List HourlyRow) :
    ((day rows).drop first).take (last + 1 - first) =
      (List.range' first (last + 1 - first)).map (made rows) := by
  rw [day_eq, range_eq_append h hl, List.map_append, List.map_append,
    List.drop_left' (by simp), List.take_left' (by simp)]

end HourlyPoint

end Report

/-! ### The report -/

section Served

open Report Settings

variable {vs : List Json} {rows : List HourlyRow}

/-- A report whose query is answered makes its body of the answer. -/
theorem Engine.exists_report {r : Report} {p : Filter.Params} {t : Moment} {q : Query}
    {db : Database} (hq : r.build? p t.today = some q) (hdb : db ⟨q.sql, q.binds⟩ = .ok vs)
    (e : Engine) : ∃ run, e.report db t r p = .ok run ∧
      run.outcome = r.template.body e.presentation vs := by
  rw [report, hq]
  refine ⟨_, rfl, ?_⟩
  show (Run.andThen ⟨db ⟨q.sql, q.binds⟩, _⟩ _).outcome = _
  rw [hdb]
  rfl

theorem Template.body_hourlyTrend (view : Presentation)
    (h : readRows Template.hourlyTrend.rowTitle HourlyRow.read vs = .ok rows) :
    Template.hourlyTrend.body view vs =
      .ok (.arr ((HourlyPoint.ofRows view.hours rows).map HourlyPoint.toJson)) := by
  rw [Template.body, h]
  rfl

/-- The hourly trend counts every row of an hour of the day at that hour and no other row; it shows
the hours from the one that the environment sets to the other, whatever hosts the system knows. -/
theorem hourly_trend_of_rows
    (h : readRows Template.hourlyTrend.rowTitle HourlyRow.read vs = .ok rows) :
    let day := HourlyPoint.day rows
    let ordersOf := fun hour => (HourlyRow.ofHour hour rows).map HourlyRow.totalOrders
    List.Forall₂ (fun v (r : HourlyRow) => r.Shows v) vs rows ∧
    day.map HourlyPoint.hour = List.range 24 ∧
    (∀ p ∈ day, p.IsShownBy p.toJson) ∧
    (∀ p ∈ day, (∀ orders, orders <+: ordersOf p.hour → Word.Fits orders.sum) →
      p.totalOrders = (ordersOf p.hour).sum) ∧
    HourlyPoint.day (rows.filter fun r => r.IsInDay) = day ∧
    ((∀ hour < 24, (HourlyRow.ofHour hour rows).length ≤ 1) →
      (∀ hour < 24, HourlyRow.ofHour hour rows = [] → HourlyPoint.empty hour ∈ day) ∧
      (∀ hour < 24, ∀ r, HourlyRow.ofHour hour rows = [r] →
        ⟨hour, cents (Binary64.zero.add (r.totalSales.getD .zero)), r.totalOrders⟩ ∈ day) ∧
      ∀ rows' : List HourlyRow, rows'.Perm rows → HourlyPoint.day rows' = day) ∧
    ∀ entries resolve s, Settings.ofEnvironment entries resolve = .ok s → ∃ start stop,
      (∀ n, Gives entries .hourlyStart 6 n ↔ n = start) ∧
      (∀ n, Gives entries .hourlyEnd 23 n ↔ n = stop) ∧
      let first := min (min start 23) (min stop 23)
      let last := max (min start 23) (min stop 23)
      ∀ zone db t p q, Report.hourlyTrend.build? p t.today = some q →
        db ⟨q.sql, q.binds⟩ = .ok vs → ∃ run, ∃ shown : List HourlyPoint,
          (Engine.ofSettings s zone).report db t .hourlyTrend p = .ok run ∧
          run.outcome = .ok (.arr (shown.map HourlyPoint.toJson)) ∧
          shown = (day.drop first).take (last + 1 - first) ∧
          shown.map HourlyPoint.hour = List.range' first (last + 1 - first) ∧ shown ≠ [] := by
  intro day ordersOf
  refine ⟨(readRows_eq_ok_iff.mp h).imp fun _ _ => HourlyRow.shows_of_read,
    HourlyPoint.map_hour_day rows,
    fun p hp => HourlyPoint.isShownBy_toJson (HourlyPoint.hour_lt_of_mem_day hp),
    fun p hp => HourlyPoint.totalOrders_of_mem_day hp,
    HourlyPoint.day_congr fun hour hh => HourlyRow.ofHour_filter_isInDay hh, ?_, ?_⟩
  · intro hone
    refine ⟨fun hour hh => HourlyPoint.empty_mem_day hh, ?_, ?_⟩
    · intro hour hh r hr
      have hmem : r ∈ HourlyRow.ofHour hour rows := by
        rw [hr]
        exact List.mem_singleton_self r
      have hfits := forall_of_readRows h (fun _ _ => HourlyRow.fits_of_read) r
        (List.mem_of_mem_filter hmem)
      exact HourlyPoint.mem_day_of_single hh hr hfits
    · intro rows' hp
      exact HourlyPoint.day_congr fun hour hh => HourlyRow.ofHour_eq_of_perm hp (hone hour hh)
  · intro entries resolve s hs
    obtain ⟨start, stop, hstart, hstop, hhours⟩ := exists_hours hs
    refine ⟨start, stop, hstart, hstop, ?_⟩
    intro first last zone db t p q hq hdb
    have hle : first ≤ last := Nat.le_trans (Nat.min_le_left _ _) (Nat.le_max_left _ _)
    have hlast : last ≤ 23 := Nat.max_le.mpr ⟨Nat.min_le_right _ _, Nat.min_le_right _ _⟩
    have hshown := HourlyPoint.take_drop_day hle hlast rows
    obtain ⟨run, hrun, houtcome⟩ := Engine.exists_report hq hdb (Engine.ofSettings s zone)
    refine ⟨run, (day.drop first).take (last + 1 - first), hrun, ?_, rfl, ?_, ?_⟩
    · have hview : (Engine.ofSettings s zone).presentation.hours = ⟨first, last⟩ := hhours
      rw [houtcome, hshown, ← HourlyPoint.ofRows_eq hle hlast, ← hview]
      exact Template.body_hourlyTrend _ h
    · rw [hshown, HourlyPoint.map_hour_made]
    · rw [hshown, ← List.length_pos_iff, List.length_map, List.length_range']
      omega

/-- Hours that are set the wrong way round and beyond the day. One row is of an hour of the day, and
one would be if its hour were cut to 32 bits. -/
theorem late_hours_of_rows :
    let row (hour : Json) (orders : Int) : Json :=
      .obj [("hour", hour), ("total_orders", .int orders)]
    let vs := [row (.int 4294967317) 1, row .null 2, row (.int 21) 3, row (.int 24) 4]
    let entries := [("DATABASE_URL", "db"), ("SALES_HOURLY_DISPLAY_START", "4294967295"),
      ("sales_hourly_display_end", "21")]
    ∃ rows s run, ∃ shown : List HourlyPoint,
      readRows Template.hourlyTrend.rowTitle HourlyRow.read vs = .ok rows ∧
      Settings.ofEnvironment entries = .ok s ∧
      (Engine.ofSettings s .utc).report (fun _ => .ok vs) ⟨⟨2025, 6, 1, by decide, by decide⟩, 0⟩
        .hourlyTrend .none = .ok run ∧
      run.outcome = .ok (.arr (shown.map HourlyPoint.toJson)) ∧
      shown.map HourlyPoint.hour = [21, 22, 23] ∧
      ⟨21, .zero, 3⟩ ∈ HourlyPoint.day rows := by
  intro row vs entries
  have hrows : readRows Template.hourlyTrend.rowTitle HourlyRow.read
      [row (.int 4294967317) 1, row .null 2, row (.int 21) 3, row (.int 24) 4] =
      .ok [⟨some 4294967317, none, 1⟩, ⟨none, none, 2⟩, ⟨some 21, none, 3⟩,
        ⟨some 24, none, 4⟩] := by
    decide +kernel
  have hset : (Settings.ofEnvironment [("DATABASE_URL", "db"),
      ("SALES_HOURLY_DISPLAY_START", "4294967295"),
      ("sales_hourly_display_end", "21")]).toOption.isSome = true := by
    decide +kernel
  obtain ⟨s, hs⟩ : ∃ s, Settings.ofEnvironment entries = .ok s := by
    cases hs : Settings.ofEnvironment entries with
    | ok s => exact ⟨s, rfl⟩
    | error e =>
      rw [hs] at hset
      cases hset
  have hbuilt : (Report.hourlyTrend.build? .none ⟨2025, 6, 1, by decide, by decide⟩).isSome := by
    decide +kernel
  obtain ⟨q, hq⟩ := Option.isSome_iff_exists.mp hbuilt
  obtain ⟨-, -, -, -, -, hone, hserved⟩ := hourly_trend_of_rows hrows
  obtain ⟨start, stop, hstart, hstop, hshown⟩ := hserved entries .nameless s hs
  have h1 : 4294967295 = start :=
    (hstart _).mp (.named (.tail _ (.head _)) (by decide +kernel) rfl (by decide +kernel))
  have h2 : 21 = stop :=
    (hstop _).mp (.named (.tail _ (.tail _ (.head _))) (by decide +kernel) rfl (by decide +kernel))
  subst h1 h2
  obtain ⟨run, shown, hrun, houtcome, -, hhours, -⟩ :=
    hshown .utc (fun _ => .ok vs) ⟨⟨2025, 6, 1, by decide, by decide⟩, 0⟩ .none q hq rfl
  obtain ⟨-, hsingle, -⟩ := hone (by decide +kernel)
  have hcents : cents (Binary64.zero.add .zero) = .zero := by
    decide +kernel
  have hentry := hsingle 21 (by decide) ⟨some 21, none, 3⟩ (by decide +kernel)
  rw [Option.getD_none, hcents] at hentry
  exact ⟨_, s, run, shown, hrows, hs, hrun, houtcome, hhours, hentry⟩

end Served

end Takings
