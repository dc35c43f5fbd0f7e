import Takings.Proofs.ParameterValues
import Takings.Proofs.TextMembers
import Takings.Report.Catalogue

/-!
# Forms of parameters

Parameters are read from objects and from arrays, and a parameter can be left out, null or empty.
What is read comes from the columns alone, so all forms of the same parameters are read alike; and
they are written in one form, which is read as the same parameters again.
-/
namespace Takings.Filter.Params

open Json

/-! ### Columns -/

/-- What a column gives for a parameter. -/
inductive Gives : Option Json → Option String → Prop
  | missing : Gives .none .none
  | null : Gives (some .null) .none
  | empty : Gives (some (.str "")) .none
  | filled {s : String} (h : s ≠ "") : Gives (some (.str s)) (some s)

/-- Two columns are the same, or nothing is given in both of them. -/
inductive Alike : Option Json → Option Json → Prop
  | same (column : Option Json) : Alike column column
  | absent {column column' : Option Json} (h : Gives column .none) (h' : Gives column' .none) :
    Alike column column'

/-- The forms that parameters have: objects, and arrays with at most one item for each parameter. -/
inductive IsForm : Json → Prop
  | object (members : List (String × Json)) : IsForm (Json.object members)
  | array {items : List Json} (h : items.length ≤ 11) : IsForm (.arr items)

variable {v w : Json} {p q : Params} {name : String} {column column' : Option Json}
  {x y : Option String}

theorem Gives.unique (h : Gives column x) (h' : Gives column y) : x = y := by
  cases h with
  | missing | null => cases h'; rfl
  | empty =>
    cases h' with
    | empty => rfl
    | filled hne => exact absurd rfl hne
  | filled hne =>
    cases h' with
    | empty => exact absurd rfl hne
    | filled _ => rfl

theorem Gives.ne_empty {s : String} (h : Gives column (some s)) : s ≠ "" := by
  cases h
  assumption

theorem Alike.gives (h : Alike column column') (hx : Gives column x) : Gives column' x := by
  cases h with
  | same => exact hx
  | absent h h' => rwa [hx.unique h]

theorem Alike.symm (h : Alike column column') : Alike column' column := by
  cases h with
  | same => exact .same _
  | absent h h' => exact .absent h' h

theorem gets_parameter_iff : (parameter name).Gets column x ↔ Gives column x := by
  constructor
  · intro h
    obtain ⟨rfl, rfl⟩ | ⟨v, rfl, hx⟩ := Field.gets_optional_iff.mp h
    · exact .missing
    · cases v with
      | null =>
        cases hx
        exact .null
      | str s =>
        obtain rfl := Except.ok.inj hx
        by_cases hs : s = ""
        · subst hs
          exact .empty
        · rw [if_neg (by simpa using hs)]
          exact .filled hs
      | bool _ | int _ | float _ _ | arr _ | obj _ => cases hx
  · intro h
    refine Field.gets_optional_iff.mpr ?_
    cases h with
    | missing => exact .inl ⟨rfl, rfl⟩
    | null | empty => exact .inr ⟨_, rfl, rfl⟩
    | @filled s hs => exact .inr ⟨_, rfl, congrArg Except.ok (if_neg (by simpa using hs))⟩

/-! ### Reading -/

theorem isRow_record : record.IsRow where
  isColumn f hf := by
    obtain ⟨name, -, rfl⟩ := List.mem_map.mp (show f ∈ Parameters.names.map parameter from hf)
    exact Field.isColumn_optional _ _ _
  nodup := Parameters.nodup_names

theorem forall_mem_names {P : String → Prop} : (∀ name ∈ Parameters.names, P name) ↔
    P "timePeriod" ∧ P "restaurantId" ∧ P "store" ∧ P "product" ∧ P "productId" ∧ P "machineId" ∧
      P "transactionType" ∧ P "deliveryChannel" ∧ P "pod" ∧ P "ocEmailId" ∧ P "omEmailId" := by
  simp [Parameters.names, record, parameter, Field.optional]

/-- The values of the fields are the parameters that the columns give. -/
theorem exists_are_iff {column? : String → Option Json} :
    (∃ xs, Values.Are column? record.fields xs ∧ ofValues xs = p) ↔
      ∀ name ∈ Parameters.names, Gives (column? name) (p.value? name) := by
  rw [forall_mem_names]
  constructor
  · rintro ⟨⟨_, _, _, _, _, _, _, _, _, _, _, ⟨⟩⟩,
      ⟨h1, h2, h3, h4, h5, h6, h7, h8, h9, h10, h11, -⟩, rfl⟩
    exact ⟨gets_parameter_iff.mp h1, gets_parameter_iff.mp h2, gets_parameter_iff.mp h3,
      gets_parameter_iff.mp h4, gets_parameter_iff.mp h5, gets_parameter_iff.mp h6,
      gets_parameter_iff.mp h7, gets_parameter_iff.mp h8, gets_parameter_iff.mp h9,
      gets_parameter_iff.mp h10, gets_parameter_iff.mp h11⟩
  · rintro ⟨h1, h2, h3, h4, h5, h6, h7, h8, h9, h10, h11⟩
    exact ⟨(p.timePeriod, p.restaurantId, p.store, p.product, p.productId, p.machineId,
        p.transactionType, p.deliveryChannel, p.pod, p.ocEmailId, p.omEmailId, ()),
      ⟨gets_parameter_iff.mpr h1, gets_parameter_iff.mpr h2, gets_parameter_iff.mpr h3,
        gets_parameter_iff.mpr h4, gets_parameter_iff.mpr h5, gets_parameter_iff.mpr h6,
        gets_parameter_iff.mpr h7, gets_parameter_iff.mpr h8, gets_parameter_iff.mpr h9,
        gets_parameter_iff.mpr h10, gets_parameter_iff.mpr h11, trivial⟩, rfl⟩

/-- Parameters that are read are those that the columns give. -/
theorem gives_of_read (h : read v = .ok p) :
    ∀ name ∈ Parameters.names, Gives (record.column? v name) (p.value? name) := by
  obtain ⟨xs, hxs, rfl⟩ := map_eq_ok_iff.mp h
  have ho : ∀ f ∈ record.fields, f.others = [] := fun f hf => (isRow_record.isColumn f hf).others
  exact exists_are_iff.mp ⟨xs, Record.are_of_read ho isRow_record.nodup hxs, rfl⟩

/-- A form is read as just the parameters that its columns give. -/
theorem read_eq_ok_iff (hv : IsForm v) : read v = .ok p ↔
    ∀ name ∈ Parameters.names, Gives (record.column? v name) (p.value? name) := by
  refine ⟨gives_of_read, fun h => ?_⟩
  obtain ⟨xs, hxs, hp⟩ := exists_are_iff.mpr h
  refine map_eq_ok_iff.mpr ⟨xs, ?_, hp⟩
  cases hv with
  | object members => exact (Record.read_object_eq_ok_iff isRow_record).mpr hxs
  | array hlength => exact (Record.read_arr_eq_ok_iff isRow_record).mpr ⟨hlength, hxs⟩

theorem read_of_alike (hv : IsForm w)
    (ha : ∀ name ∈ Parameters.names, Alike (record.column? v name) (record.column? w name))
    (h : read v = .ok p) : read w = .ok p :=
  (read_eq_ok_iff hv).mpr fun name hn => (ha name hn).gives (gives_of_read h name hn)

theorem filled_of_read (h : read v = .ok p) : p.Filled := by
  intro e he
  obtain ⟨name, hn, hvalue⟩ := List.mem_filterMap.mp he
  obtain ⟨s, hs, rfl⟩ := Option.map_eq_some_iff.mp hvalue
  have hgives := gives_of_read h name hn
  rw [hs] at hgives
  exact hgives.ne_empty

/-! ### Writing -/

/-- The names of parameters in the order in which they are written. -/
def writtenNames : List String :=
  ["deliveryChannel", "machineId", "ocEmailId", "omEmailId", "pod", "product", "productId",
    "restaurantId", "store", "timePeriod", "transactionType"]

theorem perm_writtenNames : writtenNames.Perm Parameters.names := by
  decide

/-- The text of a parameter, empty if there is none. -/
def written (p : Params) (name : String) : String × String :=
  (name, (p.value? name).getD "")

theorem toJson_eq (p : Params) : p.toJson = .obj (texts (writtenNames.map p.written)) :=
  rfl

theorem namesAscend_written (p : Params) : NamesAscend (texts (writtenNames.map p.written)) := by
  have hnames : writtenNames.Pairwise fun a b => a < b := by
    decide
  rw [texts, List.map_map, NamesAscend, List.pairwise_map]
  exact hnames

theorem isForm_toJson (p : Params) : IsForm p.toJson :=
  .object _

theorem member?_written {names : List String} (h : name ∈ names) :
    (Json.obj (texts (names.map p.written))).member? name =
      some (.str ((p.value? name).getD "")) := by
  induction names with
  | nil => cases h
  | cons n names ih =>
    by_cases hn : n = name
    · simp [texts, written, Json.member?, hn]
    · have hrest := ih ((List.mem_cons.mp h).resolve_left (Ne.symm hn))
      simpa [texts, written, Json.member?, hn] using hrest

theorem column?_toJson (p : Params) : ∀ name ∈ Parameters.names,
    p.toJson.member? name = some (.str ((p.value? name).getD "")) := by
  intro name hn
  rw [toJson_eq]
  exact member?_written (perm_writtenNames.mem_iff.mpr hn)

theorem gives_getD (h : ∀ s ∈ x, s ≠ "") : Gives (some (.str (x.getD ""))) x := by
  cases x with
  | none => exact .empty
  | some s => exact .filled (h s rfl)

theorem read_toJson (hf : p.Filled) : read p.toJson = .ok p := by
  refine (read_eq_ok_iff p.isForm_toJson).mpr fun name hn => ?_
  have hcolumn : record.column? p.toJson name = some (.str ((p.value? name).getD "")) :=
    column?_toJson p name hn
  rw [hcolumn]
  refine gives_getD fun s hs => ?_
  have hpresent : (name, s) ∈ p.present :=
    List.mem_filterMap.mpr ⟨name, hn, by rw [Option.mem_def.mp hs]; rfl⟩
  exact hf _ hpresent

theorem read_text_toJson (p : Params) : Json.read p.toJson.text = .ok p.toJson := by
  rw [toJson_eq]
  exact read_text_of_texts (by decide) p.namesAscend_written

theorem toOption_read_congr (h : ∀ p, read v = .ok p ↔ read w = .ok p) :
    (read v).toOption = (read w).toOption := by
  ext p
  rw [Composite.toOption_eq_some_iff, Composite.toOption_eq_some_iff, h]

end Takings.Filter.Params

namespace Takings.Filter

open Json Params

/-- Parameters that are read hold no empty text. They are written as an object with a text for every
parameter, the empty one for those that are absent, and that object is read from its text, and as
the same parameters. All forms with the same columns are read alike, and every report makes the same
query of them, where a column that is left out is the same as null and the empty text. -/
theorem parameters_have_one_form (v : Json) :
    let names := ["timePeriod", "restaurantId", "store", "product", "productId", "machineId",
      "transactionType", "deliveryChannel", "pod", "ocEmailId", "omEmailId"]
    (∀ p, read v = .ok p →
      p.Filled ∧
      (∃ members, p.toJson = .obj members ∧ (members.map Prod.fst).Perm names) ∧
      (∀ name ∈ names, p.toJson.member? name = some (.str ((p.value? name).getD ""))) ∧
      read p.toJson = .ok p ∧
      Json.read p.toJson.text = .ok p.toJson ∧
      ∀ q, read p.toJson = .ok q → q.toJson.text = p.toJson.text) ∧
    ∀ w, IsForm v → IsForm w →
      (∀ name ∈ names, Alike (record.column? v name) (record.column? w name)) →
      (∀ p, read v = .ok p ↔ read w = .ok p) ∧
      ∀ (r : Report) (today : Date), (read v).toOption.bind (fun p => r.build? p today) =
        (read w).toOption.bind fun p => r.build? p today := by
  intro names
  refine ⟨fun p h => ?_, fun w hv hw halike => ?_⟩
  · have hread := read_toJson (filled_of_read h)
    refine ⟨filled_of_read h, ⟨_, p.toJson_eq, ?_⟩, column?_toJson p, hread, p.read_text_toJson,
      fun q hq => ?_⟩
    · rw [texts, List.map_map]
      exact perm_writtenNames
    · rw [hread] at hq
      rw [Except.ok.inj hq]
  · have hiff (p : Params) : read v = .ok p ↔ read w = .ok p :=
      ⟨read_of_alike hw halike, read_of_alike hv fun name hn => (halike name hn).symm⟩
    refine ⟨hiff, fun r today => ?_⟩
    rw [toOption_read_congr hiff]

/-- An array that ends early and an object with another member, both without a store. -/
theorem array_and_object_are_read_alike :
    let v := Json.arr [.null, .str "R1", .str ""]
    let w := Json.object [("restaurantId", .str "R1"), ("note", .int 1), ("pod", .null)]
    read v = .ok { Params.none with restaurantId := some "R1" } ∧
      read w = .ok { Params.none with restaurantId := some "R1" } := by
  intro v w
  have hv : read v = .ok { Params.none with restaurantId := some "R1" } := rfl
  obtain ⟨-, hforms⟩ := parameters_have_one_form v
  refine ⟨hv, ((hforms w (.array (by decide)) (.object _) ?_).1 _).mp hv⟩
  have hmissing : Alike none none := .same none
  simp only [List.forall_mem_cons]
  exact ⟨.absent .null .missing, .same _, .absent .empty .missing, hmissing, hmissing, hmissing,
    hmissing, hmissing, .absent .missing .null, hmissing, hmissing, by simp⟩

end Takings.Filter
