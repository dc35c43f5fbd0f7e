import Takings.Proofs.Lookups
import Takings.Proofs.RecordColumns

/-!
# Rows of lookups

What a row of a lookup must be like to be read, and what is read of it. The cell of a column is the
member of an object that has one of the names of the column, or the item of an array in its place.
-/
namespace Takings

open Json

/-! ### Columns of texts -/

namespace Json

/-- The cell of a column that may have several names. -/
def cell? (names : List String) (place : Nat) : Json → Option Json
  | .obj members => (members.find? fun m => m.1 ∈ names).map Prod.snd
  | .arr items => items[place]?
  | _ => none

/-- A column of texts, or of texts and nulls if it is not required. An array may or may not end
before it. -/
structure TextColumn where
  names : List String
  required : Bool
  mayEnd : Bool
  deriving DecidableEq, Repr

namespace TextColumn

/-- A value that the column may have. -/
def Has (c : TextColumn) (v : Json) : Prop :=
  (∃ s, v = .str s) ∨ c.required = false ∧ v = .null

/-- The values of the members that name the column: there is one, or none if it is not required. -/
def HasOne (c : TextColumn) : List Json → Prop
  | [] => c.required = false
  | [v] => c.Has v
  | _ :: _ :: _ => False

/-- The items of an array are values of the columns in their order. -/
def HaveItems : List TextColumn → List Json → Prop
  | [], items => items = []
  | c :: cs, [] => c.mayEnd = true ∧ HaveItems cs []
  | c :: cs, v :: items => c.Has v ∧ HaveItems cs items

/-- A row with values of the columns. -/
def HaveRow (cs : List TextColumn) : Json → Prop
  | .obj members => ∀ c ∈ cs, c.HasOne ((members.filter fun m => m.1 ∈ c.names).map Prod.snd)
  | .arr items => HaveItems cs items
  | _ => False

end TextColumn

/-- A field is read from a column of texts. -/
structure Field.IsText (f : Field) (c : TextColumn) : Prop where
  names : f.names = c.names
  read : ∀ v, (∃ x, f.kind.read v = .ok x) ↔ c.Has v
  inObject : (∃ x, f.inObject = some x) ↔ c.required = false
  inArray : (∃ x, f.inArray = some x) ↔ c.mayEnd = true

section Read

variable {f : Field} {c : TextColumn} {fs : List Field} {cs : List TextColumn} {r : Record}
  {members : List (String × Json)} {items : List Json} {row : Json}

theorem Field.found_eq_filter (f : Field) (members : List (String × Json)) :
    f.found members = (members.filter fun m => m.1 ∈ f.names).map Prod.snd := by
  have hnamed : (fun m : String × Json => f.isNamed m.1) = fun m => decide (m.1 ∈ f.names) := by
    funext m
    rw [Bool.eq_iff_iff, decide_eq_true_iff, isNamed_iff]
  rw [found, hnamed]

theorem Field.IsText.exists_takes_iff (h : f.IsText c) {vs : List Json} :
    (∃ x, f.Takes vs x) ↔ c.HasOne vs := by
  match vs with
  | [] => exact h.inObject
  | [v] => exact h.read v
  | v :: w :: ws => simp [Field.Takes, TextColumn.HasOne]

/-- By induction on the columns: each takes what its own members leave. -/
theorem exists_areTaken_iff (h : List.Forall₂ Field.IsText fs cs) :
    (∃ xs, Values.AreTaken members fs xs) ↔ TextColumn.HaveRow cs (.obj members) := by
  induction h with
  | nil => exact iff_of_true ⟨(), trivial⟩ (List.forall_mem_nil _)
  | @cons f c fs cs hf _ ih =>
    have hone : (∃ x, f.Takes (f.found members) x) ↔ c.HasOne (f.found members) :=
      hf.exists_takes_iff
    rw [TextColumn.HaveRow] at ih ⊢
    rw [List.forall_mem_cons, ← ih, ← hf.names, ← Field.found_eq_filter, ← hone]
    constructor
    · rintro ⟨⟨x, xs⟩, hx, hxs⟩
      exact ⟨⟨x, hx⟩, xs, hxs⟩
    · rintro ⟨⟨x, hx⟩, xs, hxs⟩
      exact ⟨(x, xs), hx, hxs⟩

theorem exists_areItems_iff (h : List.Forall₂ Field.IsText fs cs) :
    (∃ xs, Values.AreItems fs items xs) ↔ TextColumn.HaveItems cs items := by
  induction h generalizing items with
  | nil => exact ⟨fun ⟨_, h⟩ => h, fun h => ⟨(), h⟩⟩
  | @cons f c fs cs hf _ ih =>
    cases items with
    | nil =>
      rw [TextColumn.HaveItems, ← ih, ← hf.inArray]
      constructor
      · rintro ⟨⟨x, xs⟩, hx, hxs⟩
        exact ⟨⟨x, hx⟩, xs, hxs⟩
      · rintro ⟨⟨x, hx⟩, xs, hxs⟩
        exact ⟨(x, xs), hx, hxs⟩
    | cons v items =>
      rw [TextColumn.HaveItems, ← ih, ← hf.read v]
      constructor
      · rintro ⟨⟨x, xs⟩, hx, hxs⟩
        exact ⟨⟨x, hx⟩, xs, hxs⟩
      · rintro ⟨⟨x, hx⟩, xs, hxs⟩
        exact ⟨(x, xs), hx, hxs⟩

/-- A record of texts is read exactly from rows with values of its columns. -/
theorem Record.exists_read_iff (ha : NamesApart r.fields)
    (h : List.Forall₂ Field.IsText r.fields cs) :
    (∃ xs, r.read row = .ok xs) ↔ TextColumn.HaveRow cs row := by
  cases row with
  | obj members =>
    rw [← exists_areTaken_iff h]
    exact exists_congr fun xs => ofMembers_eq_ok_iff ha
  | arr items =>
    rw [TextColumn.HaveRow, ← exists_areItems_iff h]
    exact exists_congr fun xs => ofItems_eq_ok_iff
  | null | bool _ | int _ | float _ _ | str _ =>
    exact iff_of_false (fun ⟨_, h⟩ => nomatch h) id

/-- The values that fields get of cells, from a place on. -/
def Values.AreCells (row : Json) : Nat → (fs : List Field) → Values fs → Prop
  | _, [], _ => True
  | i, f :: fs, (x, xs) => f.Gets (row.cell? f.names i) x ∧ AreCells row (i + 1) fs xs

theorem Values.areCells_of_areTaken {xs : Values fs} (h : AreTaken members fs xs) (i : Nat) :
    AreCells (.obj members) i fs xs := by
  induction fs generalizing i with
  | nil => trivial
  | cons f fs ih =>
    refine ⟨?_, ih h.2 (i + 1)⟩
    have hcell : (Json.obj members).cell? f.names i = (f.found members).head? := by
      rw [Field.found_eq_filter, List.head?_map, List.head?_filter, cell?]
    rw [hcell]
    exact Field.gets_of_takes h.1

theorem Values.areCells_of_areItems {xs : Values fs} {i : Nat}
    (h : AreItems fs (items.drop i) xs) : AreCells (.arr items) i fs xs := by
  induction fs generalizing i with
  | nil => trivial
  | cons f fs ih =>
    obtain ⟨x, xs⟩ := xs
    have hrest : AreItems fs (items.drop (i + 1)) xs := by
      rw [← List.tail_drop]
      exact areItems_tail h
    refine ⟨?_, ih hrest⟩
    show f.Gets items[i]? x
    rw [← List.head?_drop]
    cases hd : items.drop i with
    | nil =>
      rw [hd] at h
      exact .inr h.1
    | cons v rest =>
      rw [hd] at h
      exact h.1

/-- What is read of a row comes from its cells. -/
theorem Record.areCells_of_read (ha : NamesApart r.fields) {xs : Values r.fields}
    (h : r.read row = .ok xs) : Values.AreCells row 0 r.fields xs := by
  cases row with
  | obj members => exact Values.areCells_of_areTaken ((ofMembers_eq_ok_iff ha).mp h) 0
  | arr items => exact Values.areCells_of_areItems (ofItems_eq_ok_iff.mp h)
  | null | bool _ | int _ | float _ _ | str _ => cases h

end Read

/-! ### Values of texts -/

section Texts

variable {v : Json} {x : Option String} {column : Option Json}

theorem Kind.exists_read_text_iff : (∃ s, text.read v = .ok s) ↔ ∃ s, v = .str s :=
  exists_congr fun _ => read_text_eq_ok_iff

theorem Kind.exists_read_textOrNull_iff :
    (∃ x, textOrNull.read v = .ok x) ↔ (∃ s, v = .str s) ∨ v = .null := by
  rw [← exists_read_text_iff]
  exact exists_orNull_iff.trans or_comm

theorem Field.gets_called {f : Field} {name : String} {x : f.kind.Value} :
    (f.called name).Gets column x ↔ f.Gets column x :=
  Iff.rfl

/-- A text of a column that need not have one. -/
theorem eq_some_iff_of_textOrNull {raw : String}
    (h : Report.textOrNull x = column.getD .null) : x = some raw ↔ column = some (.str raw) := by
  cases x with
  | none =>
    refine iff_of_false (fun h => nomatch h) fun hc => ?_
    rw [hc] at h
    cases h
  | some s =>
    cases column with
    | none => cases h
    | some w =>
      have hw : Json.str s = w := h
      rw [← hw]
      simp

end Texts

end Json

/-! ### Lookups -/

namespace Lookup

/-- The columns of the rows of a lookup. -/
def columns : Lookup → List TextColumn
  | stores =>
    [⟨["storeId", "store_id"], true, false⟩, ⟨["storeCode", "store_code"], false, true⟩,
      ⟨["state"], false, true⟩, ⟨["city"], false, true⟩,
      ⟨["ocEmailId", "oc_email_id"], false, true⟩, ⟨["omEmailId", "om_email_id"], false, true⟩]
  | products =>
    [⟨["item_code"], true, false⟩, ⟨["item_description"], false, true⟩,
      ⟨["item_family_group"], false, true⟩, ⟨["item_day_part"], false, true⟩,
      ⟨["hierarchy_level_1"], false, true⟩, ⟨["hierarchy_level_2"], false, true⟩,
      ⟨["hierarchy_level_3"], false, true⟩, ⟨["hierarchy_level_4"], false, true⟩]
  | machines | saleTypes | deliveryChannels | pods => [⟨["value"], false, false⟩]

/-- What is read of each row. -/
def record : Lookup → Record
  | stores => StoreOption.record
  | products => ProductOption.record
  | machines | saleTypes | deliveryChannels | pods => valueRecord

theorem namesApart_record (l : Lookup) : NamesApart l.record.fields := by
  cases l <;> decide

theorem isText_fields (l : Lookup) : List.Forall₂ Field.IsText l.record.fields l.columns := by
  have hkey {names : List String} {name : String} (others : List String)
      (hn : names = name :: others) :
      Field.IsText ⟨name, others, .text, none, none⟩ ⟨names, true, false⟩ :=
    ⟨hn.symm, fun v => by simpa [TextColumn.Has] using Kind.exists_read_text_iff, by simp,
      by simp⟩
  have hplain {names : List String} {name : String} (others : List String)
      (hn : names = name :: others) :
      Field.IsText ⟨name, others, .textOrNull, some none, some none⟩ ⟨names, false, true⟩ :=
    ⟨hn.symm, fun v => by simpa [TextColumn.Has] using Kind.exists_read_textOrNull_iff, by simp,
      by simp⟩
  have hvalue : Field.IsText ⟨"value", [], .textOrNull, some none, none⟩
      ⟨["value"], false, false⟩ :=
    ⟨rfl, fun v => by simpa [TextColumn.Has] using Kind.exists_read_textOrNull_iff, by simp,
      by simp⟩
  cases l with
  | stores =>
    exact .cons (hkey _ rfl) (.cons (hplain _ rfl) (.cons (hplain _ rfl) (.cons (hplain _ rfl)
      (.cons (hplain _ rfl) (.cons (hplain _ rfl) .nil)))))
  | products =>
    exact .cons (hkey _ rfl) (.cons (hplain _ rfl) (.cons (hplain _ rfl) (.cons (hplain _ rfl)
      (.cons (hplain _ rfl) (.cons (hplain _ rfl) (.cons (hplain _ rfl)
        (.cons (hplain _ rfl) .nil)))))))
  | machines | saleTypes | deliveryChannels | pods => exact .cons hvalue .nil

/-- A row that a lookup can read. -/
def Admits (l : Lookup) (row : Json) : Prop :=
  TextColumn.HaveRow l.columns row

/-- A row has no fault exactly if it has values of all columns. -/
theorem rowFault?_eq_none_iff {l : Lookup} {row : Json} :
    l.rowFault? row = none ↔ l.Admits row := by
  have hread : l.rowFault? row = none ↔ ∃ xs, l.record.read row = .ok xs := by
    have hmap {α : Type} {fs : List Field} (make : Values fs → α)
        (x : Except DecodeError (Values fs)) :
        fault? (x.map make) = none ↔ ∃ xs, x = .ok xs := by
      cases x <;> simp [fault?, Except.map]
    cases l <;> exact hmap _ _
  rw [hread, Admits, Record.exists_read_iff l.namesApart_record l.isText_fields]

end Lookup

/-! ### What is read -/

section Shown

variable {row : Json}

/-- The texts of a store, each with the names and the place of its column. -/
def StoreOption.textColumns : List (String × List String × Nat) :=
  [("storeId", ["storeId", "store_id"], 0), ("storeCode", ["storeCode", "store_code"], 1),
    ("state", ["state"], 2), ("city", ["city"], 3),
    ("ocEmailId", ["ocEmailId", "oc_email_id"], 4), ("omEmailId", ["omEmailId", "om_email_id"], 5)]

/-- A store shows the columns of a row. What is not there is null. -/
structure StoreOption.Shows (s : StoreOption) (row : Json) : Prop where
  storeId : row.cell? ["storeId", "store_id"] 0 = some (.str s.storeId)
  text : ∀ e ∈ textColumns,
    s.toJson.member? e.1 = some ((row.cell? e.2.1 e.2.2).getD .null)

/-- The texts of a product, each with the names and the place of its column. -/
def ProductOption.textColumns : List (String × List String × Nat) :=
  [("item_code", ["item_code"], 0), ("item_description", ["item_description"], 1),
    ("itemFamilyGroup", ["item_family_group"], 2), ("itemDayPart", ["item_day_part"], 3)]

/-- A product shows the columns of a row. What is not there is null. -/
structure ProductOption.Shows (p : ProductOption) (row : Json) : Prop where
  code : row.cell? ["item_code"] 0 = some (.str p.code)
  text : ∀ e ∈ textColumns,
    p.toJson.member? e.1 = some ((row.cell? e.2.1 e.2.2).getD .null)
  levels : p.toJson.member? "hierarchyLevels" = some (.arr
    [(row.cell? ["hierarchy_level_1"] 4).getD .null, (row.cell? ["hierarchy_level_2"] 5).getD .null,
      (row.cell? ["hierarchy_level_3"] 6).getD .null,
      (row.cell? ["hierarchy_level_4"] 7).getD .null])

/-- The columns that a store is read from. -/
theorem StoreOption.areCells_of_read {s : StoreOption} (h : read row = .ok s) :
    Values.AreCells row 0 record.fields
      (s.storeId, s.storeCode, s.state, s.city, s.ocEmailId, s.omEmailId, ()) := by
  obtain ⟨⟨storeId, storeCode, state, city, ocEmailId, omEmailId, ⟨⟩⟩, hx, rfl⟩ :=
    map_eq_ok_iff.mp h
  exact Record.areCells_of_read Lookup.stores.namesApart_record hx

theorem StoreOption.shows_of_read {s : StoreOption} (h : read row = .ok s) : s.Shows row := by
  obtain ⟨hid, hcode, hstate, hcity, hoc, hom, -⟩ := areCells_of_read h
  have hkey : row.cell? ["storeId", "store_id"] 0 = some (.str s.storeId) :=
    Field.eq_of_gets_text (Field.gets_called.mp hid)
  refine ⟨hkey, fun e he => ?_⟩
  simp only [textColumns, List.mem_cons, List.not_mem_nil, or_false] at he
  rcases he with rfl | rfl | rfl | rfl | rfl | rfl
  · rw [hkey]
    rfl
  · exact congrArg some (Field.textOrNull_of_gets (Field.gets_called.mp hcode))
  · exact congrArg some (Field.textOrNull_of_gets hstate)
  · exact congrArg some (Field.textOrNull_of_gets hcity)
  · exact congrArg some (Field.textOrNull_of_gets (Field.gets_called.mp hoc))
  · exact congrArg some (Field.textOrNull_of_gets (Field.gets_called.mp hom))

/-- The columns that a product is read from. -/
theorem ProductOption.areCells_of_read {p : ProductOption} (h : read row = .ok p) :
    ∃ level₁ level₂ level₃ level₄, p.levels = [level₁, level₂, level₃, level₄] ∧
      Values.AreCells row 0 record.fields (p.code, p.description, p.familyGroup, p.dayPart,
        level₁, level₂, level₃, level₄, ()) := by
  obtain ⟨⟨code, description, familyGroup, dayPart, level₁, level₂, level₃, level₄, ⟨⟩⟩, hx, rfl⟩ :=
    map_eq_ok_iff.mp h
  exact ⟨level₁, level₂, level₃, level₄, rfl,
    Record.areCells_of_read Lookup.products.namesApart_record hx⟩

theorem ProductOption.shows_of_read {p : ProductOption} (h : read row = .ok p) : p.Shows row := by
  obtain ⟨level₁, level₂, level₃, level₄, hlevels, hcode, hdescription, hfamily, hpart, h₁, h₂, h₃,
    h₄, -⟩ := areCells_of_read h
  have hkey : row.cell? ["item_code"] 0 = some (.str p.code) :=
    Field.eq_of_gets_text hcode
  refine ⟨hkey, fun e he => ?_, ?_⟩
  · simp only [textColumns, List.mem_cons, List.not_mem_nil, or_false] at he
    rcases he with rfl | rfl | rfl | rfl
    · rw [hkey]
      rfl
    · exact congrArg some (Field.textOrNull_of_gets hdescription)
    · exact congrArg some (Field.textOrNull_of_gets hfamily)
    · exact congrArg some (Field.textOrNull_of_gets hpart)
  · have hmember : p.toJson.member? "hierarchyLevels" =
        some (.arr (p.levels.map Report.textOrNull)) := rfl
    rw [hmember, hlevels, List.map_cons, List.map_cons, List.map_cons, List.map_cons, List.map_nil,
      Field.textOrNull_of_gets h₁, Field.textOrNull_of_gets h₂, Field.textOrNull_of_gets h₃,
      Field.textOrNull_of_gets h₄]
    rfl

/-- The value of a row is that of its column, and null stands for none. -/
theorem textOrNull_of_readValue {x : Option String} (h : readValue row = .ok x) :
    Report.textOrNull x = (row.cell? ["value"] 0).getD .null := by
  obtain ⟨⟨value, ⟨⟩⟩, hx, rfl⟩ := map_eq_ok_iff.mp h
  obtain ⟨hvalue, -⟩ := Record.areCells_of_read Lookup.machines.namesApart_record hx
  have hgets : (⟨"value", [], .textOrNull, some none, none⟩ : Field).Gets
      (row.cell? ["value"] 0) value := hvalue
  cases hc : row.cell? ["value"] 0 with
  | none =>
    rw [hc] at hgets
    rcases hgets with hnone | hnone
    · cases hnone
      rfl
    · cases hnone
  | some v =>
    rw [hc] at hgets
    exact (Kind.read_textOrNull_eq_ok_iff.mp hgets).symm

end Shown

end Takings
