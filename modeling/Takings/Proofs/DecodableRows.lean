import Takings.Proofs.ColumnValues
import Takings.Proofs.DailyEntries
import Takings.Proofs.OpenedValues
import Takings.Proofs.TimeSpellings
import Takings.Report.Body

/-!
# Rows that can be read

The rows of a query are read all or none: the first one that is not of the declared shape decides
the failure, whatever stands behind it. An object is of the shape exactly if each declared column
is, and further members do not count.
-/
namespace Takings

open Json

/-! ### Declared columns -/

namespace Json

/-- The types of values that columns have. -/
inductive ValueType where
  | any
  | text
  | date
  | time
  | whole
  | number
  deriving DecidableEq, Repr

/-- How a column may be left out. -/
inductive Presence where
  | required
  /-- Null is the same as nothing. -/
  | optional
  /-- There is a default, but it does not stand for null. -/
  | defaulted
  deriving DecidableEq, Repr

/-- A value is of a type, given what counts as a value of any kind. -/
def ValueType.Has (any : Json → Prop) : ValueType → Json → Prop
  | .any, v => any v
  | .text, v => ∃ s, v = .str s
  | .date, v => ∃ (s : String) (d : Date), v = .str s ∧ d.Spells s.toList
  | .time, v => ∃ (s : String) (t : TimeOfDay), v = .str s ∧ t.Spells s.toList
  | .whole, v => ∃ n : Int, v = .int n ∧ -9223372036854775808 ≤ n ∧ n ≤ 9223372036854775807
  | .number, v => (∃ n, v = .int n) ∨ ∃ x h, v = .float x h

/-- The declaration of a column. -/
structure Declaration where
  name : String
  presence : Presence
  type : ValueType
  deriving DecidableEq, Repr

/-- What a row has in a column is as declared. -/
def Declaration.Admits (any : Json → Prop) (c : Declaration) (column : Option Json) : Prop :=
  match c.presence with
  | .required => ∃ v, column = some v ∧ c.type.Has any v
  | .optional => ∀ v ∈ column, v = .null ∨ c.type.Has any v
  | .defaulted => ∀ v ∈ column, c.type.Has any v

/-- Only a required column has to be there. -/
theorem Declaration.admits_none {any : Json → Prop} {c : Declaration}
    (h : c.presence ≠ .required) : c.Admits any none := by
  rw [Admits]
  split
  · exact absurd ‹_› h
  · exact fun _ hv => absurd hv (Option.not_mem_none _)
  · exact fun _ hv => absurd hv (Option.not_mem_none _)

/-- Objects without a member for a column that need not be there are as declared. -/
theorem Declaration.admits_missing {any : Json → Prop} {c : Declaration}
    {members : List (String × Json)} (h : c.presence ≠ .required)
    (hn : ∀ name ∈ members.map Prod.fst, name ≠ c.name) :
    c.Admits any ((object members).member? c.name) := by
  have hnone : (object members).member? c.name = none := by
    rw [member?_object, List.find?_eq_none.mpr, Option.map_none]
    intro m hm
    simpa using hn m.1 (List.mem_map_of_mem (List.mem_reverse.mp hm))
  rw [hnone]
  exact admits_none h

namespace Kind

variable {v : Json}

theorem exists_readText_iff : (∃ s, readText v = .ok s) ↔ ValueType.text.Has Opens v :=
  exists_congr fun _ => read_text_eq_ok_iff

theorem exists_readCount_iff : (∃ n, readCount v = .ok n) ↔ ValueType.whole.Has Opens v := by
  refine exists_congr fun n => readCount_eq_ok_iff.trans (and_congr_right fun _ => ?_)
  rw [Word.Fits]
  omega

theorem exists_readAmount_iff : (∃ x, readAmount v = .ok x) ↔ ValueType.number.Has Opens v := by
  cases v with
  | int n => exact iff_of_true ⟨_, rfl⟩ (.inl ⟨n, rfl⟩)
  | float x hx => exact iff_of_true ⟨_, rfl⟩ (.inr ⟨x, hx, rfl⟩)
  | null | bool _ | str _ | arr _ | obj _ => simp [readAmount, ValueType.Has]

theorem exists_readDate_iff : (∃ d, readDate v = .ok d) ↔ ValueType.date.Has Opens v :=
  (exists_congr fun _ => read_date_eq_ok_iff).trans exists_comm

theorem exists_readTime_iff : (∃ t, readTime v = .ok t) ↔ ValueType.time.Has Opens v := by
  cases v with
  | str s => simp [readTime, mapError_eq_ok_iff, TimeOfDay.read_eq_ok_iff, ValueType.Has]
  | null | bool _ | int _ | float _ _ | arr _ | obj _ => simp [readTime, ValueType.Has]

end Kind

/-- A field is what a declaration says. -/
structure Field.Follows (f : Field) (c : Declaration) : Prop where
  name : f.name = c.name
  isColumn : f.IsColumn
  gets : ∀ column, (∃ x, f.Gets column x) ↔ c.Admits Opens column

namespace Field

variable {kind : Kind} {type : ValueType}

theorem follows_required (name : String)
    (h : ∀ v, (∃ x, kind.read v = .ok x) ↔ type.Has Opens v) :
    (required name kind).Follows ⟨name, .required, type⟩ where
  name := rfl
  isColumn := isColumn_required name kind
  gets column := by
    cases column with
    | none => simp [Gets, required, Declaration.Admits]
    | some v => simpa [Gets, required, Declaration.Admits] using h v

theorem exists_gets_optional_iff {name : String} {value : kind.Value} {column : Option Json} :
    (∃ x, (optional name kind value).Gets column x) ↔
      ∀ v ∈ column, ∃ x, kind.read v = .ok x := by
  cases column with
  | none => exact iff_of_true ⟨value, .inl rfl⟩ fun _ hv => absurd hv (Option.not_mem_none _)
  | some v => simp [Gets, optional]

theorem follows_optional (name : String) (value : kind.Value)
    (h : ∀ v, (∃ x, kind.read v = .ok x) ↔ v = .null ∨ type.Has Opens v) :
    (optional name kind value).Follows ⟨name, .optional, type⟩ where
  name := rfl
  isColumn := isColumn_optional name kind value
  gets _ := exists_gets_optional_iff.trans (forall₂_congr fun v _ => h v)

theorem follows_defaulted (name : String) (value : kind.Value)
    (h : ∀ v, (∃ x, kind.read v = .ok x) ↔ type.Has Opens v) :
    (optional name kind value).Follows ⟨name, .defaulted, type⟩ where
  name := rfl
  isColumn := isColumn_optional name kind value
  gets _ := exists_gets_optional_iff.trans (forall₂_congr fun v _ => h v)

theorem isColumn_of_follows {fs : List Field} {cs : List Declaration}
    (h : List.Forall₂ Follows fs cs) : ∀ f ∈ fs, f.IsColumn := by
  induction h with
  | nil => simp
  | cons hf _ ih => exact List.forall_mem_cons.mpr ⟨hf.isColumn, ih⟩

theorem forall_name_iff {fs : List Field} {cs : List Declaration}
    (h : List.Forall₂ Follows fs cs) (p : String → Prop) :
    (∀ f ∈ fs, p f.name) ↔ ∀ c ∈ cs, p c.name := by
  induction h with
  | nil => simp
  | cons hf _ ih => rw [List.forall_mem_cons, List.forall_mem_cons, ih, hf.name]

/-- All fields get values exactly if all columns are as declared. -/
theorem forall_gets_iff {fs : List Field} {cs : List Declaration}
    (h : List.Forall₂ Follows fs cs) (column? : String → Option Json) :
    (∀ f ∈ fs, ∃ x, f.Gets (column? f.name) x) ↔
      ∀ c ∈ cs, c.Admits Opens (column? c.name) := by
  induction h with
  | nil => simp
  | cons hf _ ih => rw [List.forall_mem_cons, List.forall_mem_cons, ih, hf.gets, hf.name]

/-! Each kind that rows have is that of a type, with null or without it. -/

theorem follows_any (name : String) : (required name .json).Follows ⟨name, .required, .any⟩ :=
  follows_required name fun _ => Kind.exists_readJson_iff

theorem follows_anyOrNull (name : String) :
    (optional name .json .null).Follows ⟨name, .optional, .any⟩ :=
  follows_optional name _ fun v => by
    show (∃ w, Kind.readJson v = .ok w) ↔ v = .null ∨ Opens v
    rw [Kind.exists_readJson_iff]
    exact ⟨.inr, fun h => h.elim (fun hv => hv ▸ .null) id⟩

theorem follows_text (name : String) : (required name .text).Follows ⟨name, .required, .text⟩ :=
  follows_required name fun _ => Kind.exists_readText_iff

theorem follows_textOrNull (name : String) :
    (optional name .textOrNull none).Follows ⟨name, .optional, .text⟩ :=
  follows_optional name _ fun _ =>
    Kind.exists_orNull_iff.trans (or_congr_right Kind.exists_readText_iff)

theorem follows_date (name : String) : (required name .date).Follows ⟨name, .required, .date⟩ :=
  follows_required name fun _ => Kind.exists_readDate_iff

theorem follows_timeOrNull (name : String) :
    (optional name .timeOrNull none).Follows ⟨name, .optional, .time⟩ :=
  follows_optional name _ fun _ =>
    Kind.exists_orNull_iff.trans (or_congr_right Kind.exists_readTime_iff)

theorem follows_countOrNull (name : String) :
    (optional name .countOrNull none).Follows ⟨name, .optional, .whole⟩ :=
  follows_optional name _ fun _ =>
    Kind.exists_orNull_iff.trans (or_congr_right Kind.exists_readCount_iff)

theorem follows_amount (name : String) :
    (optional name .amount none).Follows ⟨name, .optional, .number⟩ :=
  follows_optional name _ fun _ =>
    Kind.exists_orNull_iff.trans (or_congr_right Kind.exists_readAmount_iff)

theorem follows_count (name : String) :
    (optional name .count (0 : Int)).Follows ⟨name, .defaulted, .whole⟩ :=
  follows_defaulted name _ fun _ => Kind.exists_readCount_iff

end Field

end Json

/-! ### Templates -/

namespace Template

open Report

/-- What is read of each row. -/
def record : Template → Record
  | itemized => SaleRow.record
  | summary => SummaryRow.record
  | dailyTrend => DailyRow.record
  | hourlyTrend => HourlyRow.record
  | breakdown _ _ => BreakdownRow.record
  | storeSummary => StoreRow.record

/-- The declared columns of rows. -/
def columns : Template → List Declaration
  | itemized =>
    [⟨"sales_id", .required, .any⟩, ⟨"business_date", .required, .date⟩,
      ⟨"start_time", .optional, .time⟩, ⟨"restaurant_id", .optional, .text⟩,
      ⟨"machine_id", .optional, .text⟩, ⟨"product_id", .optional, .text⟩,
      ⟨"product_name", .optional, .text⟩, ⟨"item_family_group", .optional, .text⟩,
      ⟨"item_day_part", .optional, .text⟩, ⟨"transaction_type", .optional, .text⟩,
      ⟨"delivery_channel", .optional, .text⟩, ⟨"pod", .optional, .text⟩,
      ⟨"invoice_number", .optional, .any⟩, ⟨"total_amount", .optional, .number⟩,
      ⟨"item_qty", .optional, .number⟩]
  | summary =>
    [⟨"total_sales", .optional, .number⟩, ⟨"total_orders", .defaulted, .whole⟩,
      ⟨"total_invoices", .defaulted, .whole⟩]
  | dailyTrend =>
    [⟨"business_date", .required, .date⟩, ⟨"total_sales", .optional, .number⟩,
      ⟨"total_orders", .defaulted, .whole⟩]
  | hourlyTrend =>
    [⟨"hour", .optional, .whole⟩, ⟨"total_sales", .optional, .number⟩,
      ⟨"total_orders", .defaulted, .whole⟩]
  | breakdown _ _ =>
    [⟨"label", .optional, .text⟩, ⟨"total_sales", .optional, .number⟩,
      ⟨"total_orders", .defaulted, .whole⟩, ⟨"total_quantity", .optional, .number⟩]
  | storeSummary =>
    [⟨"store_id", .required, .text⟩, ⟨"store_code", .optional, .text⟩,
      ⟨"city", .optional, .text⟩, ⟨"state", .optional, .text⟩,
      ⟨"total_sales", .optional, .number⟩, ⟨"total_orders", .defaulted, .whole⟩,
      ⟨"total_invoices", .defaulted, .whole⟩]

theorem follows (t : Template) : List.Forall₂ Field.Follows t.record.fields t.columns := by
  open Field in
  cases t <;>
    simp only [record, columns, SaleRow.record, SummaryRow.record, DailyRow.record,
      HourlyRow.record, BreakdownRow.record, StoreRow.record, List.forall₂_cons,
      List.Forall₂.nil, follows_any, follows_anyOrNull, follows_text, follows_textOrNull,
      follows_date, follows_timeOrNull, follows_countOrNull, follows_amount, follows_count,
      and_self]

theorem isRow_record (t : Template) : t.record.IsRow where
  isColumn := Field.isColumn_of_follows t.follows
  nodup := by
    cases t with
    | breakdown _ _ => exact (by decide : (BreakdownRow.record.fields.map Field.name).Nodup)
    | itemized | summary | dailyTrend | hourlyTrend | storeSummary => decide

/-- A row can be read. -/
def Decodes (t : Template) (v : Json) : Prop :=
  ∃ xs, t.record.read v = .ok xs

/-- An object can be read exactly if its columns are as declared. -/
theorem decodes_object_iff (t : Template) (members : List (String × Json)) :
    t.Decodes (object members) ↔
      ∀ c ∈ t.columns, c.Admits Opens ((object members).member? c.name) := by
  simp only [Decodes, Record.read_object_eq_ok_iff t.isRow_record, Values.exists_are_iff]
  exact Field.forall_gets_iff t.follows (object members).member?

/-- Members that are not declared do not count. -/
theorem read_object_congr (t : Template) {members members' : List (String × Json)}
    (h : ∀ c ∈ t.columns, (object members).member? c.name = (object members').member? c.name)
    {xs : Values t.record.fields} :
    t.record.read (object members) = .ok xs ↔ t.record.read (object members') = .ok xs := by
  have hnames := (Field.forall_name_iff t.follows fun name =>
    (object members).member? name = (object members').member? name).mpr h
  rw [Record.read_object_eq_ok_iff t.isRow_record, Record.read_object_eq_ok_iff t.isRow_record]
  exact ⟨Values.are_congr hnames, Values.are_congr fun f hf => (hnames f hf).symm⟩

end Template

/-! ### Rows -/

section Rows

variable {α β γ : Type} {what : String} {read : Json → Except DecodeError α}
  {vs good after : List Json} {bad : Json} {e : DecodeError}

theorem map_readRows (g : α → β) (f : List β → γ) :
    (readRows what (fun v => (read v).map g) vs).map f =
      (readRows what read vs).map fun xs => f (xs.map g) := by
  induction vs generalizing f with
  | nil => rfl
  | cons v vs ih =>
    rw [readRows_cons, readRows_cons]
    cases hv : read v with
    | error e => rfl
    | ok row =>
      have hrest := ih fun xs => f (g row :: xs)
      revert hrest
      cases readRows what (fun v => (read v).map g) vs <;> cases readRows what read vs <;> exact id

theorem exists_readRows_iff :
    (∃ rows, readRows what read vs = .ok rows) ↔ ∀ v ∈ vs, ∃ row, read v = .ok row := by
  simp only [readRows_eq_ok_iff]
  induction vs with
  | nil => exact iff_of_true ⟨[], .nil⟩ (by simp)
  | cons v vs ih =>
    rw [List.forall_mem_cons, ← ih]
    constructor
    · rintro ⟨_, h⟩
      cases h with
      | cons hrow hrows => exact ⟨⟨_, hrow⟩, _, hrows⟩
    · rintro ⟨⟨row, hrow⟩, rows, hrows⟩
      exact ⟨row :: rows, .cons hrow hrows⟩

/-- The first row that cannot be read decides the failure. -/
theorem readRows_of_first (hg : ∀ v ∈ good, ∃ row, read v = .ok row)
    (hb : read bad = .error e) : readRows what read (good ++ bad :: after) =
      .error (.query ("unexpected " ++ what ++ ": " ++ e.message)) := by
  induction good with
  | nil =>
    rw [List.nil_append, readRows_cons, hb]
    rfl
  | cons v good ih =>
    obtain ⟨⟨row, hv⟩, hgood⟩ := List.forall_mem_cons.mp hg
    rw [List.cons_append, readRows_cons, hv, ih hgood]
    rfl

/-- If not all rows can be read, there is a first one that cannot. -/
theorem exists_first (h : ¬ ∀ v ∈ vs, ∃ row, read v = .ok row) :
    ∃ good bad after e, vs = good ++ bad :: after ∧ (∀ v ∈ good, ∃ row, read v = .ok row) ∧
      read bad = .error e := by
  induction vs with
  | nil => exact absurd (by simp) h
  | cons v vs ih =>
    cases hv : read v with
    | error e => exact ⟨[], v, vs, e, rfl, by simp, hv⟩
    | ok row =>
      rw [List.forall_mem_cons] at h
      obtain ⟨good, bad, after, e, rfl, hgood, hbad⟩ := ih fun hvs => h ⟨⟨row, hv⟩, hvs⟩
      exact ⟨v :: good, bad, after, e, rfl, List.forall_mem_cons.mpr ⟨⟨row, hv⟩, hgood⟩, hbad⟩

end Rows

section Body

open Report

variable {vs good after : List Json} {bad : Json} {e : DecodeError} {f : Failure}

namespace Template

/-- A body is made of what is read of the rows. -/
theorem exists_body (t : Template) (view : Presentation) :
    ∃ make : List (Values t.record.fields) → Json,
      ∀ vs, t.body view vs = (readRows t.rowTitle t.record.read vs).map make := by
  cases t <;> exact ⟨_, fun vs => map_readRows _ _⟩

theorem exists_body_iff (t : Template) (view : Presentation) :
    (∃ body, t.body view vs = .ok body) ↔ ∀ v ∈ vs, t.Decodes v := by
  obtain ⟨make, hmake⟩ := t.exists_body view
  have hrows : (∃ rows, readRows t.rowTitle t.record.read vs = .ok rows) ↔ ∀ v ∈ vs, t.Decodes v :=
    exists_readRows_iff
  simp only [hmake, map_eq_ok_iff, ← hrows]
  exact ⟨fun ⟨_, rows, hrows, _⟩ => ⟨rows, hrows⟩, fun ⟨rows, hrows⟩ => ⟨_, rows, hrows, rfl⟩⟩

theorem body_of_first (t : Template) (view : Presentation) (hg : ∀ v ∈ good, t.Decodes v)
    (hb : t.record.read bad = .error e) : t.body view (good ++ bad :: after) =
      .error (.query ("unexpected " ++ t.rowTitle ++ ": " ++ e.message)) := by
  obtain ⟨make, hmake⟩ := t.exists_body view
  rw [hmake, readRows_of_first hg hb]
  rfl

theorem exists_first_of_body (t : Template) (view : Presentation)
    (h : t.body view vs = .error f) :
    ∃ good bad after e, vs = good ++ bad :: after ∧ (∀ v ∈ good, t.Decodes v) ∧
      t.record.read bad = .error e ∧
      f = .query ("unexpected " ++ t.rowTitle ++ ": " ++ e.message) := by
  have hnot : ¬ ∀ v ∈ vs, t.Decodes v := by
    rw [← t.exists_body_iff view, h]
    rintro ⟨_, hbody⟩
    cases hbody
  obtain ⟨good, bad, after, e, rfl, hg, hb⟩ := exists_first hnot
  rw [t.body_of_first view hg hb] at h
  exact ⟨good, bad, after, e, rfl, hg, hb, (Except.error.inj h).symm⟩

end Template

/-- Rows make a body exactly if each of them can be read. Otherwise the first one that cannot be
read decides the failure, which is always that of a query, whatever rows stand behind it. An object
can be read exactly if its declared columns are as declared, where a value of any kind must open;
other members do not count. -/
theorem rows_are_read_all_or_none (t : Template) (view : Presentation) :
    (∀ vs, (∃ body, t.body view vs = .ok body) ↔ ∀ v ∈ vs, t.Decodes v) ∧
    (∀ vs f, t.body view vs = .error f →
      ∃ good bad after e, vs = good ++ bad :: after ∧ (∀ v ∈ good, t.Decodes v) ∧
        t.record.read bad = .error e ∧
        f = .query ("unexpected " ++ t.rowTitle ++ ": " ++ e.message)) ∧
    (∀ good bad after e, (∀ v ∈ good, t.Decodes v) → t.record.read bad = .error e →
      t.body view (good ++ bad :: after) =
        .error (.query ("unexpected " ++ t.rowTitle ++ ": " ++ e.message))) ∧
    (∀ members, t.Decodes (object members) ↔
      ∀ c ∈ t.columns, c.Admits Opens ((object members).member? c.name)) ∧
    ∀ members members' xs,
      (∀ c ∈ t.columns, (object members).member? c.name = (object members').member? c.name) →
      (t.record.read (object members) = .ok xs ↔ t.record.read (object members') = .ok xs) :=
  ⟨fun _ => t.exists_body_iff view, fun _ _ => t.exists_first_of_body view,
    fun _ _ _ _ => t.body_of_first view, t.decodes_object_iff,
    fun _ _ _ h => t.read_object_congr h⟩

/-- A summary shows its first row, and still fails at the second one and not at the third. -/
theorem summary_fails_at_second_row :
    Template.summary.body ⟨.wholeDay, .utc⟩
        [.object [("total_sales", .int 5), ("note", .bool true)], .object [("total_orders", .null)],
          .str "x"] =
      .error (.query "unexpected summary row shape: invalid type: null, expected i64") := by
  obtain ⟨-, -, hfirst, hobject, -⟩ := rows_are_read_all_or_none .summary ⟨.wholeDay, .utc⟩
  refine hfirst [.object [("total_sales", .int 5), ("note", .bool true)]] _ [.str "x"]
    (.wrongType .null "i64") (List.forall_mem_singleton.mpr ((hobject _).mpr ?_)) rfl
  have hmissing : ∀ c ∈ Template.summary.columns.tail,
      c.presence ≠ .required ∧ ∀ name ∈ ["total_sales", "note"], name ≠ c.name := by
    decide
  refine List.forall_mem_cons.mpr ⟨?_, fun c hc => ?_⟩
  · intro v hv
    cases hv
    exact .inr (.inl ⟨5, rfl⟩)
  · exact Declaration.admits_missing (hmissing c hc).1 (hmissing c hc).2

/-- A value that begins with the name of an envelope without being one is refused, although its
column may have any value. -/
theorem reserved_name_is_refused :
    let row := object
      [("business_date", .str "2025-06-01"),
        ("sales_id", object [(envelopeName, .str "1"), ("x", .int 1)])]
    (∀ c ∈ Template.itemized.columns, c.Admits (fun _ => True) (row.member? c.name)) ∧
      ¬ Template.itemized.Decodes row ∧
      Template.itemized.body ⟨.wholeDay, .utc⟩ [row] = .error (.query
        "unexpected sales row shape: invalid length 2, expected fewer elements in map") := by
  intro row
  have hread : Template.itemized.record.read row = .error (.tooManyMembers 2) :=
    rfl
  have hmissing : ∀ c ∈ Template.itemized.columns.tail.tail,
      c.presence ≠ .required ∧ ∀ name ∈ ["business_date", "sales_id"], name ≠ c.name := by
    decide
  have hnone : ∀ v ∈ ([] : List Json), Template.itemized.Decodes v :=
    List.forall_mem_nil _
  refine ⟨?_, ?_, Template.body_of_first .itemized _ hnone hread⟩
  · refine List.forall_mem_cons.mpr ⟨⟨_, rfl, trivial⟩, List.forall_mem_cons.mpr ⟨?_, ?_⟩⟩
    · exact ⟨_, rfl, "2025-06-01", ⟨2025, 6, 1, by decide, by decide⟩, rfl,
        Date.read_eq_ok_iff.mp (by decide +kernel)⟩
    · exact fun c hc => Declaration.admits_missing (hmissing c hc).1 (hmissing c hc).2
  · rintro ⟨xs, hxs⟩
    rw [hread] at hxs
    cases hxs

end Body

end Takings
