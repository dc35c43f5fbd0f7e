import Mathlib.Data.List.Induction
import Mathlib.Data.List.Nodup
import Takings.Json.Record
import Takings.Proofs.ObjectMembers
import Takings.Proofs.Outcomes
import Takings.Proofs.RecordValues
import Takings.Report.Amount

/-!
# Columns of records

A record is read exactly if each of its fields is: from the one member that names it, or from the
item in its place, or from nothing if it has a default. So what a field gets depends on its own
column alone, and records with fields in common read the same values of them.
-/
namespace Takings.Json

namespace Field

/-- All names of a field. -/
def names (f : Field) : List String :=
  f.name :: f.others

theorem isNamed_iff {f : Field} {key : String} : f.isNamed key = true ↔ key ∈ f.names := by
  simp [isNamed, names]

/-- The values of the members that name a field. -/
def found (f : Field) (members : List (String × Json)) : List Json :=
  (members.filter fun m => f.isNamed m.1).map Prod.snd

theorem found_concat (f : Field) (members : List (String × Json)) (key : String) (v : Json) :
    f.found (members ++ [(key, v)]) = f.found members ++ if f.isNamed key then [v] else [] := by
  rw [found, found, List.filter_append, List.map_append]
  cases h : f.isNamed key <;> simp [h]

/-- What the members that name a field leave in its slot. -/
def Fills (f : Field) : List Json → Option f.kind.Value → Prop
  | [], slot => slot = none
  | [v], slot => ∃ x, f.kind.read v = .ok x ∧ slot = some x
  | _ :: _ :: _, _ => False

/-- The value that a field gets of the members that name it. -/
def Takes (f : Field) : List Json → f.kind.Value → Prop
  | [], x => f.inObject = some x
  | [v], x => f.kind.read v = .ok x
  | _ :: _ :: _, _ => False

/-- One member more names the field: it must be the first one. -/
theorem fills_concat {f : Field} {vs : List Json} {v : Json} {slot : Option f.kind.Value} :
    f.Fills (vs ++ [v]) slot ↔ f.Fills vs none ∧ ∃ x, f.kind.read v = .ok x ∧ slot = some x := by
  match vs with
  | [] => simp [Fills]
  | [w] => simp [Fills]
  | w :: w' :: ws => simp [Fills]

theorem takes_iff {f : Field} {vs : List Json} {x : f.kind.Value} :
    f.Takes vs x ↔ ∃ slot, f.Fills vs slot ∧ slot.or f.inObject = some x := by
  match vs with
  | [] => simp [Takes, Fills]
  | [v] => simp [Takes, Fills]
  | v :: w :: ws => simp [Takes, Fills]

end Field

/-- No name belongs to two fields. -/
def NamesApart (fs : List Field) : Prop :=
  (fs.flatMap Field.names).Nodup

instance (fs : List Field) : Decidable (NamesApart fs) :=
  inferInstanceAs (Decidable (List.Nodup _))

/-- Fields without further names have different ones. -/
theorem namesApart_of_nodup {fs : List Field} (ho : ∀ f ∈ fs, f.others = [])
    (hn : (fs.map Field.name).Nodup) : NamesApart fs := by
  have hnames : fs.flatMap Field.names = fs.map Field.name := by
    rw [← List.flatMap_singleton' (fs.map Field.name), List.flatMap_map]
    refine List.flatMap_congr fun f hf => ?_
    rw [Field.names, ho f hf]
  rwa [NamesApart, hnames]

theorem NamesApart.tail {f : Field} {fs : List Field} (h : NamesApart (f :: fs)) :
    NamesApart fs := by
  rw [NamesApart, List.flatMap_cons, List.nodup_append] at h
  exact h.2.1

theorem NamesApart.not_isNamed {f g : Field} {fs : List Field} (h : NamesApart (f :: fs))
    (hg : g ∈ fs) {key : String} (hk : f.isNamed key = true) : g.isNamed key = false := by
  rw [NamesApart, List.flatMap_cons, List.nodup_append] at h
  rw [← Bool.not_eq_true, Field.isNamed_iff]
  intro hkey
  exact h.2.2 key (Field.isNamed_iff.mp hk) key (List.mem_flatMap.mpr ⟨g, hg, hkey⟩) rfl

/-! ### Objects -/

/-- The slots after members. -/
def Slots.AreFilled (members : List (String × Json)) : (fs : List Field) → Slots fs → Prop
  | [], _ => True
  | f :: fs, (slot, rest) => f.Fills (f.found members) slot ∧ AreFilled members fs rest

/-- The values that fields get of members. -/
def Values.AreTaken (members : List (String × Json)) : (fs : List Field) → Values fs → Prop
  | [], _ => True
  | f :: fs, (x, xs) => f.Takes (f.found members) x ∧ AreTaken members fs xs

section Members

variable {members : List (String × Json)} {fs : List Field} {key : String} {v : Json}

namespace Slots

theorem areFilled_nil {s : Slots fs} : AreFilled [] fs s ↔ s = empty fs := by
  induction fs with
  | nil => exact iff_of_true trivial rfl
  | cons f fs ih =>
    obtain ⟨slot, rest⟩ := s
    show f.Fills [] slot ∧ AreFilled [] fs rest ↔ (slot, rest) = (none, empty fs)
    rw [ih, Prod.mk.injEq]
    rfl

/-- A member that names none of the fields changes nothing. -/
theorem areFilled_concat_of_not_isNamed (h : ∀ f ∈ fs, f.isNamed key = false) {s : Slots fs} :
    AreFilled (members ++ [(key, v)]) fs s ↔ AreFilled members fs s := by
  induction fs with
  | nil => exact Iff.rfl
  | cons f fs ih =>
    obtain ⟨hf, hfs⟩ := List.forall_mem_cons.mp h
    obtain ⟨slot, rest⟩ := s
    show f.Fills (f.found (members ++ [(key, v)])) slot ∧ _ ↔ f.Fills (f.found members) slot ∧ _
    rw [Field.found_concat, hf, if_neg Bool.false_ne_true, List.append_nil, ih hfs]

theorem put_of_isNamed {f : Field} {slot : Option f.kind.Value} {rest : Slots fs}
    (h : f.isNamed key = true) : put (f :: fs) (slot, rest) (key, v) =
      match slot with
      | some _ => .error (.duplicateField f.name)
      | none => (f.kind.read v).map fun x => (some x, rest) := by
  cases slot <;> exact if_pos h

theorem put_of_not_isNamed {f : Field} {slot : Option f.kind.Value} {rest : Slots fs}
    (h : f.isNamed key = false) : put (f :: fs) (slot, rest) (key, v) =
      (put fs rest (key, v)).map fun rest => (slot, rest) := by
  cases slot <;> exact if_neg (by simp [h])

/-- One member more. -/
theorem exists_put_iff (ha : NamesApart fs) {s' : Slots fs} :
    (∃ s, AreFilled members fs s ∧ put fs s (key, v) = .ok s') ↔
      AreFilled (members ++ [(key, v)]) fs s' := by
  induction fs with
  | nil => exact iff_of_true ⟨(), trivial, rfl⟩ trivial
  | cons f fs ih =>
    obtain ⟨slot', rest'⟩ := s'
    show _ ↔ f.Fills (f.found (members ++ [(key, v)])) slot' ∧ AreFilled _ fs rest'
    rw [Field.found_concat]
    cases hf : f.isNamed key with
    | true =>
      have hfs : ∀ g ∈ fs, g.isNamed key = false := fun g hg => ha.not_isNamed hg hf
      rw [if_pos rfl, Field.fills_concat, areFilled_concat_of_not_isNamed hfs]
      constructor
      · rintro ⟨⟨slot, rest⟩, ⟨hslot, hrest⟩, hput⟩
        rw [put_of_isNamed hf] at hput
        cases slot with
        | some x => cases hput
        | none =>
          obtain ⟨x, hx, he⟩ := map_eq_ok_iff.mp hput
          cases he
          exact ⟨⟨hslot, x, hx, rfl⟩, hrest⟩
      · rintro ⟨⟨hslot, x, hx, rfl⟩, hrest⟩
        refine ⟨(none, rest'), ⟨hslot, hrest⟩, ?_⟩
        rw [put_of_isNamed hf, hx]
        rfl
    | false =>
      rw [if_neg Bool.false_ne_true, List.append_nil, ← ih ha.tail]
      constructor
      · rintro ⟨⟨slot, rest⟩, ⟨hslot, hrest⟩, hput⟩
        rw [put_of_not_isNamed hf] at hput
        obtain ⟨r, hr, he⟩ := map_eq_ok_iff.mp hput
        cases he
        exact ⟨hslot, rest, hrest, hr⟩
      · rintro ⟨hslot, rest, hrest, hput⟩
        refine ⟨(slot', rest), ⟨hslot, hrest⟩, ?_⟩
        rw [put_of_not_isNamed hf, hput]
        rfl

theorem foldlM_put_eq_ok_iff (ha : NamesApart fs) {s : Slots fs} :
    members.foldlM (put fs) (empty fs) = .ok s ↔ AreFilled members fs s := by
  -- From the end: all members but the last fill some slots, and the last is put into these.
  induction members using List.reverseRecOn generalizing s with
  | nil =>
    rw [areFilled_nil]
    exact ⟨fun h => (Except.ok.inj h).symm, fun h => congrArg Except.ok h.symm⟩
  | append_singleton members m ih =>
    rw [← exists_put_iff ha, List.foldlM_append, bind_eq_ok_iff]
    simp only [ih]
    refine exists_congr fun t => and_congr_right fun _ => ?_
    rw [List.foldlM_cons, bind_eq_ok_iff]
    constructor
    · rintro ⟨_, h, he⟩
      cases he
      exact h
    · exact fun h => ⟨s, h, rfl⟩

/-- All members have been read. -/
theorem exists_values_iff {xs : Values fs} :
    (∃ s, AreFilled members fs s ∧ values fs s = .ok xs) ↔ Values.AreTaken members fs xs := by
  induction fs with
  | nil => exact iff_of_true ⟨(), trivial, rfl⟩ trivial
  | cons f fs ih =>
    obtain ⟨x, xs⟩ := xs
    have hvalues (slot : Option f.kind.Value) (rest : Slots fs) :
        values (f :: fs) (slot, rest) = .ok (x, xs) ↔
          slot.or f.inObject = some x ∧ values fs rest = .ok xs := by
      rw [values]
      cases slot.or f.inObject with
      | none => simp
      | some y =>
        show Except.map _ _ = _ ↔ _
        rw [map_eq_ok_iff]
        simp only [Prod.mk.injEq, Option.some.injEq]
        constructor
        · rintro ⟨ys, hys, rfl, rfl⟩
          exact ⟨rfl, hys⟩
        · rintro ⟨rfl, hys⟩
          exact ⟨xs, hys, rfl, rfl⟩
    show _ ↔ f.Takes (f.found members) x ∧ Values.AreTaken members fs xs
    rw [Field.takes_iff, ← ih]
    constructor
    · rintro ⟨⟨slot, rest⟩, ⟨hslot, hrest⟩, hv⟩
      obtain ⟨hx, hxs⟩ := (hvalues slot rest).mp hv
      exact ⟨⟨slot, hslot, hx⟩, rest, hrest, hxs⟩
    · rintro ⟨⟨slot, hslot, hx⟩, rest, hrest, hxs⟩
      exact ⟨(slot, rest), ⟨hslot, hrest⟩, (hvalues slot rest).mpr ⟨hx, hxs⟩⟩

end Slots

/-- An object is read exactly if each field takes a value of the members that name it. -/
theorem Record.ofMembers_eq_ok_iff {r : Record} (ha : NamesApart r.fields)
    {xs : Values r.fields} :
    r.ofMembers members = .ok xs ↔ Values.AreTaken members r.fields xs := by
  have hr : r.ofMembers members = members.foldlM (Slots.put r.fields) (Slots.empty r.fields) >>=
      Slots.values r.fields := rfl
  rw [hr, bind_eq_ok_iff, ← Slots.exists_values_iff]
  simp only [Slots.foldlM_put_eq_ok_iff ha]

end Members

/-! ### Arrays -/

/-- The values that fields get of items in their order. -/
def Values.AreItems : (fs : List Field) → List Json → Values fs → Prop
  | [], items, _ => items = []
  | f :: fs, [], (x, xs) => f.inArray = some x ∧ AreItems fs [] xs
  | f :: fs, v :: items, (x, xs) => f.kind.read v = .ok x ∧ AreItems fs items xs

namespace Record

variable {r : Record} {fs : List Field} {items : List Json}

theorem readItems_eq_ok_iff {i : Nat} {xs : Values fs} :
    r.readItems fs i items = .ok (xs, []) ↔ Values.AreItems fs items xs := by
  induction fs generalizing i items with
  | nil =>
    show Except.ok ((), items) = Except.ok (xs, []) ↔ items = []
    simp
  | cons f fs ih =>
    obtain ⟨x, xs⟩ := xs
    cases items with
    | nil =>
      show _ ↔ f.inArray = some x ∧ Values.AreItems fs [] xs
      rw [readItems, ← ih (i := i + 1)]
      cases f.inArray with
      | none => simp
      | some y =>
        show Except.map _ _ = _ ↔ _
        rw [map_eq_ok_iff]
        constructor
        · rintro ⟨⟨ys, rest⟩, hys, he⟩
          cases he
          exact ⟨rfl, hys⟩
        · rintro ⟨hy, hys⟩
          cases hy
          exact ⟨(xs, []), hys, rfl⟩
    | cons v items =>
      show _ ↔ f.kind.read v = .ok x ∧ Values.AreItems fs items xs
      rw [readItems, bind_eq_ok_iff, ← ih (i := i + 1)]
      constructor
      · rintro ⟨y, hy, h⟩
        obtain ⟨⟨ys, rest⟩, hys, he⟩ := bind_eq_ok_iff.mp h
        cases he
        exact ⟨hy, hys⟩
      · rintro ⟨hx, hxs⟩
        exact ⟨x, hx, bind_eq_ok_iff.mpr ⟨(xs, []), hxs, rfl⟩⟩

/-- An array is read exactly if each field gets the item in its place or its default, and no item is
left. -/
theorem ofItems_eq_ok_iff {xs : Values r.fields} :
    r.ofItems items = .ok xs ↔ Values.AreItems r.fields items xs := by
  rw [ofItems, ← readItems_eq_ok_iff (r := r) (i := 0), bind_eq_ok_iff]
  constructor
  · rintro ⟨⟨ys, rest⟩, hys, h⟩
    dsimp only at h
    split at h
    · rename_i he
      cases h
      rw [hys, List.isEmpty_iff.mp he]
    · cases h
  · intro h
    exact ⟨(xs, []), h, rfl⟩

end Record

theorem Values.areItems_tail {f : Field} {fs : List Field} {items : List Json}
    {x : f.kind.Value} {xs : Values fs} (h : AreItems (f :: fs) items (x, xs)) :
    AreItems fs items.tail xs := by
  cases items <;> exact h.2

/-! ### Columns -/

/-- The item in the place of the field of a name. -/
def itemNamed? (fs : List Field) (items : List Json) (name : String) : Option Json :=
  ((fs.zip items).find? fun e => e.1.name = name).map Prod.snd

theorem itemNamed?_nil (fs : List Field) (name : String) : itemNamed? fs [] name = none := by
  simp [itemNamed?]

theorem itemNamed?_cons_self (f : Field) (fs : List Field) (v : Json) (items : List Json) :
    itemNamed? (f :: fs) (v :: items) f.name = some v := by
  simp [itemNamed?]

theorem itemNamed?_cons_of_ne {f : Field} {name : String} (h : f.name ≠ name) (fs : List Field)
    (items : List Json) : itemNamed? (f :: fs) items name = itemNamed? fs items.tail name := by
  cases items <;> simp [itemNamed?, h]

/-- What a row has in a column: the member of that name, or the item in the place of the field. -/
def Record.column? (r : Record) (v : Json) (name : String) : Option Json :=
  match v with
  | .obj _ => v.member? name
  | .arr items => itemNamed? r.fields items name
  | _ => none

/-- The value of a field: that of its column, or a default of the field. -/
def Field.Gets (f : Field) (column : Option Json) (x : f.kind.Value) : Prop :=
  match column with
  | some v => f.kind.read v = .ok x
  | none => f.inObject = some x ∨ f.inArray = some x

theorem Field.gets_required_iff {name : String} {kind : Kind} {column : Option Json}
    {x : kind.Value} :
    (Field.required name kind).Gets column x ↔ ∃ v, column = some v ∧ kind.read v = .ok x := by
  cases column <;> simp [Gets, required]

theorem Field.gets_optional_iff {name : String} {kind : Kind} {value : kind.Value}
    {column : Option Json} {x : kind.Value} :
    (Field.optional name kind value).Gets column x ↔
      column = none ∧ x = value ∨ ∃ v, column = some v ∧ kind.read v = .ok x := by
  cases column <;> simp [Gets, optional, eq_comm]

/-- The values that fields get of columns. -/
def Values.Are (column? : String → Option Json) : (fs : List Field) → Values fs → Prop
  | [], _ => True
  | f :: fs, (x, xs) => f.Gets (column? f.name) x ∧ Are column? fs xs

section Columns

variable {r : Record} {fs : List Field} {members : List (String × Json)} {items : List Json}

/-- A field without further names takes the member of its name. -/
theorem Field.head?_found {f : Field} (h : f.others = []) (members : List (String × Json)) :
    (f.found members).head? = (Json.obj members).member? f.name := by
  have hnamed : (fun m : String × Json => f.isNamed m.1) = fun m => decide (m.1 = f.name) := by
    funext m
    rw [Bool.eq_iff_iff, decide_eq_true_iff, isNamed_iff, names, h, List.mem_singleton]
  rw [found, List.head?_map, List.head?_filter, hnamed, member?]

theorem Field.gets_of_takes {f : Field} {vs : List Json} {x : f.kind.Value} (h : f.Takes vs x) :
    f.Gets vs.head? x := by
  match vs with
  | [] => exact .inl h
  | [v] => exact h
  | v :: w :: ws => exact h.elim

theorem Values.are_of_areTaken (ho : ∀ f ∈ fs, f.others = []) {xs : Values fs}
    (h : AreTaken members fs xs) : Are (Json.obj members).member? fs xs := by
  induction fs with
  | nil => trivial
  | cons f fs ih =>
    obtain ⟨hf, hfs⟩ := List.forall_mem_cons.mp ho
    refine ⟨?_, ih hfs h.2⟩
    show f.Gets ((Json.obj members).member? f.name) xs.1
    rw [← Field.head?_found hf]
    exact Field.gets_of_takes h.1

theorem Values.are_congr {column? column?' : String → Option Json} {xs : Values fs}
    (hc : ∀ f ∈ fs, column? f.name = column?' f.name) (h : Are column? fs xs) :
    Are column?' fs xs := by
  induction fs with
  | nil => trivial
  | cons f fs ih =>
    obtain ⟨hf, hfs⟩ := List.forall_mem_cons.mp hc
    exact ⟨hf ▸ h.1, ih hfs h.2⟩

theorem Values.are_of_areItems (hn : (fs.map Field.name).Nodup) {xs : Values fs}
    (h : AreItems fs items xs) : Are (itemNamed? fs items) fs xs := by
  induction fs generalizing items with
  | nil => trivial
  | cons f fs ih =>
    rw [List.map_cons, List.nodup_cons] at hn
    have hrest : Are (itemNamed? (f :: fs) items) fs xs.2 := by
      refine are_congr (fun g hg => ?_) (ih hn.2 (areItems_tail h))
      have hne : f.name ≠ g.name := fun he => hn.1 (he ▸ List.mem_map_of_mem hg)
      rw [itemNamed?_cons_of_ne hne]
    refine ⟨?_, hrest⟩
    show f.Gets (itemNamed? (f :: fs) items f.name) xs.1
    cases items with
    | nil =>
      rw [itemNamed?_nil]
      exact .inr h.1
    | cons v items =>
      rw [itemNamed?_cons_self]
      exact h.1

/-- Columns determine the values if an array that ends early leaves the same ones as an object. -/
theorem Values.eq_of_are {column? : String → Option Json}
    (hd : ∀ f ∈ fs, f.inArray = f.inObject) {xs ys : Values fs} (hx : Are column? fs xs)
    (hy : Are column? fs ys) : xs = ys := by
  induction fs with
  | nil => rfl
  | cons f fs ih =>
    obtain ⟨hf, hfs⟩ := List.forall_mem_cons.mp hd
    refine Prod.ext ?_ (ih hfs hx.2 hy.2)
    have hxf : f.Gets (column? f.name) xs.1 := hx.1
    have hyf : f.Gets (column? f.name) ys.1 := hy.1
    cases hc : column? f.name with
    | none =>
      rw [hc, Field.Gets, hf, or_self] at hxf hyf
      exact Option.some.inj (hxf.symm.trans hyf)
    | some v =>
      rw [hc] at hxf hyf
      exact Except.ok.inj (hxf.symm.trans hyf)

/-- What is read of a row comes from its columns. -/
theorem Record.are_of_read (ho : ∀ f ∈ r.fields, f.others = [])
    (hn : (r.fields.map Field.name).Nodup) {v : Json} {xs : Values r.fields}
    (h : r.read v = .ok xs) : Values.Are (r.column? v) r.fields xs := by
  have ha : NamesApart r.fields := namesApart_of_nodup ho hn
  cases v with
  | obj members => exact Values.are_of_areTaken ho ((ofMembers_eq_ok_iff ha).mp h)
  | arr items => exact Values.are_of_areItems hn (ofItems_eq_ok_iff.mp h)
  | null | bool _ | int _ | float _ _ | str _ => cases h

end Columns

/-! ### Columns that are shown -/

section Shown

variable {name : String} {column : Option Json}

theorem Kind.read_text_eq_ok_iff {v : Json} {s : String} : text.read v = .ok s ↔ v = .str s := by
  cases v <;> simp [read, readText]

theorem Kind.read_textOrNull_eq_ok_iff {v : Json} {x : Option String} :
    textOrNull.read v = .ok x ↔ v = Report.textOrNull x := by
  cases v <;> cases x <;> simp [read, orNull, readText, Except.map, Report.textOrNull]

theorem Field.eq_of_gets_text {s : String} (h : (required name .text).Gets column s) :
    column = some (.str s) := by
  obtain ⟨v, hv, hs⟩ := gets_required_iff.mp h
  rw [hv, Kind.read_text_eq_ok_iff.mp hs]

/-- A text that is shown is that of its column, and null stands for none. -/
theorem Field.textOrNull_of_gets {x : Option String}
    (h : (optional name .textOrNull none).Gets column x) :
    Report.textOrNull x = column.getD .null := by
  obtain ⟨rfl, rfl⟩ | ⟨v, rfl, hx⟩ := gets_optional_iff.mp h
  · rfl
  · exact (Kind.read_textOrNull_eq_ok_iff.mp hx).symm

/-- The number of an amount. Null, like no column, is zero. -/
def amountOf : Option Json → Binary64
  | some (.int n) => .ofInt n
  | some (.float x _) => x
  | _ => .zero

theorem Field.getD_of_gets_amount {x : Option Binary64}
    (h : (optional name .amount none).Gets column x) : x.getD .zero = amountOf column := by
  obtain ⟨rfl, rfl⟩ | ⟨v, rfl, hx⟩ := gets_optional_iff.mp h
  · rfl
  · cases v with
    | null | int _ | float _ _ =>
      cases hx
      rfl
    | bool _ | str _ | arr _ | obj _ => cases hx

/-- A count that is shown is that of its column, and zero stands for none. -/
theorem Field.int_of_gets_count {name : String} {n : Int}
    (h : (optional name .count (0 : Int)).Gets column n) : Json.int n = column.getD (.int 0) := by
  obtain ⟨rfl, rfl⟩ | ⟨v, rfl, hn⟩ := gets_optional_iff.mp h
  · rfl
  · exact (Kind.readCount_eq_ok_iff.mp hn).1.symm

/-- There is a count if its column has a whole number. -/
theorem Field.eq_some_iff_of_gets_count {name : String} {x : Option Int} {n : Int}
    (h : (optional name .countOrNull none).Gets column x) :
    x = some n ↔ column = some (.int n) := by
  obtain ⟨rfl, rfl⟩ | ⟨v, rfl, hx⟩ := gets_optional_iff.mp h
  · exact iff_of_false (fun h => nomatch h) fun h => nomatch h
  · obtain ⟨rfl, rfl⟩ | ⟨i, hi, rfl⟩ := Kind.orNull_cases hx
    · exact iff_of_false (fun h => nomatch h) fun h => nomatch h
    · rw [(Kind.readCount_eq_ok_iff.mp hi).1]
      simp

end Shown

end Takings.Json
