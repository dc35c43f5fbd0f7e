import Takings.Proofs.RecordColumns

/-!
# Records from columns

No two members of an object have one name, and an item of an array stands for one field. So a record
is read exactly if each of its fields gets a value of its column, be the columns those of an object
or of an array that is not too long.
-/
namespace Takings.Json

/-! ### Names of objects -/

section Names

variable {name : String} {v : Json} {l : List (String × Json)}

/-- The names of members in ascending order. -/
def NamesAscend (l : List (String × Json)) : Prop :=
  l.Pairwise fun a b => a.1 < b.1

theorem lt_of_not_lt_of_ne {a b : String} (h : ¬ a < b) (hne : a ≠ b) : b < a := by
  rw [← String.not_le]
  exact fun hle => hne (String.le_antisymm hle (String.not_lt.mp h))

theorem forall_lt_insert {k : String} (hk : k < name) (h : ∀ m ∈ l, k < m.1) :
    ∀ m ∈ insert name v l, k < m.1 := by
  induction l with
  | nil => exact List.forall_mem_singleton.mpr hk
  | cons e l ih =>
    obtain ⟨he, hl⟩ := List.forall_mem_cons.mp h
    rw [insert]
    split
    · exact List.forall_mem_cons.mpr ⟨hk, h⟩
    · split
      · exact List.forall_mem_cons.mpr ⟨hk, hl⟩
      · exact List.forall_mem_cons.mpr ⟨he, ih hl⟩

theorem namesAscend_insert (h : NamesAscend l) : NamesAscend (insert name v l) := by
  induction l with
  | nil => exact List.pairwise_singleton _ _
  | cons e l ih =>
    obtain ⟨k, w⟩ := e
    obtain ⟨hk, hl⟩ := List.pairwise_cons.mp h
    rw [insert]
    split
    · rename_i hlt
      refine List.pairwise_cons.mpr ⟨List.forall_mem_cons.mpr ⟨hlt, fun m hm => ?_⟩, h⟩
      exact String.lt_trans hlt (hk m hm)
    · rename_i hlt
      split
      · rename_i he
        rw [he]
        exact List.pairwise_cons.mpr ⟨hk, hl⟩
      · rename_i hne
        exact List.pairwise_cons.mpr ⟨forall_lt_insert (lt_of_not_lt_of_ne hlt hne) hk, ih hl⟩

theorem namesAscend_foldl_insert (members : List (String × Json)) (h : NamesAscend l) :
    NamesAscend (members.foldl (fun l (k, v) => insert k v l) l) := by
  induction members generalizing l with
  | nil => exact h
  | cons m members ih => exact ih (namesAscend_insert h)

/-- Names in ascending order are all different. -/
theorem nodup_of_namesAscend (h : NamesAscend l) : (l.map Prod.fst).Nodup := by
  rw [List.Nodup, List.pairwise_map]
  refine h.imp fun hab he => ?_
  rw [he] at hab
  exact String.lt_irrefl _ hab

/-- An object is made of members with different names. -/
theorem exists_object (members : List (String × Json)) :
    ∃ l, object members = .obj l ∧ (l.map Prod.fst).Nodup :=
  ⟨_, rfl, nodup_of_namesAscend (namesAscend_foldl_insert members List.Pairwise.nil)⟩

end Names

/-! ### Values of columns -/

variable {fs : List Field} {r : Record}

/-- A field has one name, and the same default in an object as in an array. -/
structure Field.IsColumn (f : Field) : Prop where
  others : f.others = []
  inArray : f.inArray = f.inObject

theorem Field.isColumn_required (name : String) (kind : Kind) : (required name kind).IsColumn :=
  ⟨rfl, rfl⟩

theorem Field.isColumn_optional (name : String) (kind : Kind) (value : kind.Value) :
    (optional name kind value).IsColumn :=
  ⟨rfl, rfl⟩

/-- The members that name a field are the one of its name. -/
theorem Field.found_eq {f : Field} (hf : f.IsColumn) {l : List (String × Json)}
    (hl : (l.map Prod.fst).Nodup) : f.found l = ((Json.obj l).member? f.name).toList := by
  have hone : (f.found l).length ≤ 1 := by
    have hnodup : ((l.filter fun m => f.isNamed m.1).map Prod.fst).Nodup :=
      hl.sublist (List.filter_sublist.map _)
    have hsame : (l.filter fun m => f.isNamed m.1).map Prod.fst =
        List.replicate (f.found l).length f.name := by
      refine List.eq_replicate_iff.mpr ⟨by simp [found], fun n hn => ?_⟩
      obtain ⟨m, hm, rfl⟩ := List.mem_map.mp hn
      have hnamed := isNamed_iff.mp (List.mem_filter.mp hm).2
      rwa [names, hf.others, List.mem_singleton] at hnamed
    rwa [hsame, List.nodup_replicate] at hnodup
  rw [← head?_found hf.others]
  generalize f.found l = vs at hone
  rcases vs with - | ⟨v, - | ⟨w, ws⟩⟩
  · rfl
  · rfl
  · simp at hone

theorem Field.takes_toList_iff {f : Field} (hf : f.IsColumn) {column : Option Json}
    {x : f.kind.Value} : f.Takes column.toList x ↔ f.Gets column x := by
  cases column with
  | none => simp [Takes, Gets, hf.inArray]
  | some v => exact Iff.rfl

theorem Values.areTaken_iff (hf : ∀ f ∈ fs, f.IsColumn) {l : List (String × Json)}
    (hl : (l.map Prod.fst).Nodup) {xs : Values fs} :
    AreTaken l fs xs ↔ Are (Json.obj l).member? fs xs := by
  induction fs with
  | nil => exact Iff.rfl
  | cons f fs ih =>
    obtain ⟨hcolumn, hfs⟩ := List.forall_mem_cons.mp hf
    obtain ⟨x, xs⟩ := xs
    show f.Takes (f.found l) x ∧ _ ↔ f.Gets ((Json.obj l).member? f.name) x ∧ _
    rw [Field.found_eq hcolumn hl, Field.takes_toList_iff hcolumn, ih hfs]

theorem Values.areItems_iff (hf : ∀ f ∈ fs, f.IsColumn) (hn : (fs.map Field.name).Nodup)
    {items : List Json} {xs : Values fs} :
    AreItems fs items xs ↔ items.length ≤ fs.length ∧ Are (itemNamed? fs items) fs xs := by
  induction fs generalizing items with
  | nil =>
    show items = [] ↔ items.length ≤ 0 ∧ True
    rw [and_true, Nat.le_zero, List.length_eq_zero_iff]
  | cons f fs ih =>
    obtain ⟨hcolumn, hfs⟩ := List.forall_mem_cons.mp hf
    rw [List.map_cons, List.nodup_cons] at hn
    obtain ⟨x, xs⟩ := xs
    have hrest : Are (itemNamed? (f :: fs) items) fs xs ↔ Are (itemNamed? fs items.tail) fs xs := by
      have hnames : ∀ g ∈ fs,
          itemNamed? (f :: fs) items g.name = itemNamed? fs items.tail g.name := by
        intro g hg
        have hne : f.name ≠ g.name := fun he => hn.1 (he ▸ List.mem_map_of_mem hg)
        exact itemNamed?_cons_of_ne hne fs items
      exact ⟨are_congr hnames, are_congr fun g hg => (hnames g hg).symm⟩
    show _ ↔ _ ∧ f.Gets (itemNamed? (f :: fs) items f.name) x ∧ Are _ fs xs
    rw [hrest]
    cases items with
    | nil =>
      show f.inArray = some x ∧ AreItems fs [] xs ↔ _
      rw [ih hfs hn.2, itemNamed?_nil, Field.Gets, ← hcolumn.inArray, or_self]
      simp
    | cons v items =>
      show f.kind.read v = .ok x ∧ AreItems fs items xs ↔ _
      rw [ih hfs hn.2, itemNamed?_cons_self, List.length_cons, List.length_cons,
        Nat.succ_le_succ_iff, List.tail_cons]
      exact and_left_comm

theorem Values.exists_are_iff {column? : String → Option Json} :
    (∃ xs, Are column? fs xs) ↔ ∀ f ∈ fs, ∃ x, f.Gets (column? f.name) x := by
  induction fs with
  | nil => simp [Are]
  | cons f fs ih =>
    rw [List.forall_mem_cons, ← ih]
    constructor
    · rintro ⟨⟨x, xs⟩, hx, hxs⟩
      exact ⟨⟨x, hx⟩, xs, hxs⟩
    · rintro ⟨⟨x, hx⟩, xs, hxs⟩
      exact ⟨(x, xs), hx, hxs⟩

/-! ### Records -/

/-- Every field of a record is a column, each with a name of its own. -/
structure Record.IsRow (r : Record) : Prop where
  isColumn : ∀ f ∈ r.fields, f.IsColumn
  nodup : (r.fields.map Field.name).Nodup

theorem Record.IsRow.namesApart (h : r.IsRow) : NamesApart r.fields :=
  namesApart_of_nodup (fun f hf => (h.isColumn f hf).others) h.nodup

/-- An object is read exactly as its columns are. -/
theorem Record.read_object_eq_ok_iff (h : r.IsRow) {members : List (String × Json)}
    {xs : Values r.fields} : r.read (object members) = .ok xs ↔
      Values.Are (r.column? (object members)) r.fields xs := by
  obtain ⟨l, hl, hnodup⟩ := exists_object members
  rw [hl]
  show r.ofMembers l = .ok xs ↔ Values.Are (Json.obj l).member? r.fields xs
  rw [ofMembers_eq_ok_iff h.namesApart, Values.areTaken_iff h.isColumn hnodup]

/-- An array is read exactly as its columns are, if it has no more items than the record has
fields. -/
theorem Record.read_arr_eq_ok_iff (h : r.IsRow) {items : List Json} {xs : Values r.fields} :
    r.read (.arr items) = .ok xs ↔ items.length ≤ r.fields.length ∧
      Values.Are (r.column? (.arr items)) r.fields xs := by
  show r.ofItems items = .ok xs ↔ _ ∧ Values.Are (itemNamed? r.fields items) r.fields xs
  rw [ofItems_eq_ok_iff, Values.areItems_iff h.isColumn h.nodup]

end Takings.Json
