import Takings.Proofs.ParameterNames

/-!
# Values of parameters

Pairs that give each present parameter once, in any order and among pairs of other names, are read
as those parameters.
-/
namespace Takings.Filter

open Json

namespace Params

/-- The parameter of a name. -/
def value? (p : Params) : String → Option String
  | "timePeriod" => p.timePeriod
  | "restaurantId" => p.restaurantId
  | "store" => p.store
  | "product" => p.product
  | "productId" => p.productId
  | "machineId" => p.machineId
  | "transactionType" => p.transactionType
  | "deliveryChannel" => p.deliveryChannel
  | "pod" => p.pod
  | "ocEmailId" => p.ocEmailId
  | "omEmailId" => p.omEmailId
  | _ => .none

/-- The parameters that are present, under their names. -/
def present (p : Params) : List (String × String) :=
  Parameters.names.filterMap fun name => (p.value? name).map fun value => (name, value)

/-- No present parameter is the empty text. -/
def Filled (p : Params) : Prop :=
  ∀ e ∈ p.present, e.2 ≠ ""

/-- Pairs give the present parameters, each once; other pairs have the names of no parameters. -/
def GivenBy (p : Params) (pairs : List (String × String)) : Prop :=
  (pairs.filter fun e => Parameters.names.contains e.1).Perm p.present

instance (p : Params) : Decidable p.Filled :=
  inferInstanceAs (Decidable (∀ e ∈ p.present, e.2 ≠ ""))

instance (p : Params) (pairs : List (String × String)) : Decidable (p.GivenBy pairs) :=
  inferInstanceAs (Decidable (List.Perm _ _))

end Params

namespace Parameters

/-! ### Slots of values -/

/-- The value of a name among pairs. -/
def lookup? (pairs : List (String × String)) (name : String) : Option String :=
  (pairs.find? fun e => e.1 = name).map Prod.snd

/-- A text, where the empty one counts as none. -/
def filledText (value : String) : Option String :=
  if value.isEmpty then none else some value

/-- The slot of a name that holds a value. -/
def slotOf (n : String) (value : Option String) : Option (Params.parameter n).kind.Value :=
  value.map filledText

/-- The slots that hold the given values. -/
def slotsOf (value : String → Option String) : (ns : List String) → Slots (fields ns)
  | [] => ()
  | n :: ns => (slotOf n (value n), slotsOf value ns)

/-- The values that come of those slots. -/
def valuesOf (value : String → Option String) : (ns : List String) → Values (fields ns)
  | [] => ()
  | n :: ns => ((value n).bind filledText, valuesOf value ns)

section Slots

variable {value value' : String → Option String} {ns : List String}

theorem slotsOf_cons (value : String → Option String) (n : String) (ns : List String) :
    slotsOf value (n :: ns) = (slotOf n (value n), slotsOf value ns) :=
  rfl

theorem slotsOf_congr (h : ∀ n ∈ ns, value n = value' n) :
    slotsOf value ns = slotsOf value' ns := by
  induction ns with
  | nil => rfl
  | cons n ns ih =>
    rw [List.forall_mem_cons] at h
    rw [slotsOf_cons, slotsOf_cons, h.1, ih h.2]

theorem put_slotsOf (hn : ns.Nodup) {name : String} (hv : name ∈ ns → value name = none)
    (text : String) : Slots.put (fields ns) (slotsOf value ns) (name, .str text) =
      .ok (slotsOf (fun m => if m = name then some text else value m) ns) := by
  induction ns with
  | nil => rfl
  | cons n ns ih =>
    obtain ⟨hnot, hn⟩ := List.nodup_cons.mp hn
    rw [slotsOf_cons, slotsOf_cons, put_cons]
    by_cases hname : name = n
    · subst hname
      have hrest : slotsOf value ns =
          slotsOf (fun m => if m = name then some text else value m) ns := by
        apply slotsOf_congr
        intro m hm
        have hne : m ≠ name := fun h => hnot (h ▸ hm)
        rw [if_neg hne]
      rw [if_pos rfl, if_pos rfl, hv List.mem_cons_self, hrest]
      rfl
    · rw [if_neg hname, if_neg (Ne.symm hname),
        ih hn fun h => hv (List.mem_cons_of_mem n h)]
      rfl

theorem values_slotsOf (value : String → Option String) (ns : List String) :
    Slots.values (fields ns) (slotsOf value ns) = .ok (valuesOf value ns) := by
  induction ns with
  | nil => rfl
  | cons n ns ih =>
    have hv (v : Option String) : Slots.values (fields (n :: ns)) (slotOf n v, slotsOf value ns) =
        (Slots.values (fields ns) (slotsOf value ns)).map fun xs => (v.bind filledText, xs) := by
      cases v <;> rfl
    rw [slotsOf_cons, hv, ih]
    rfl

end Slots

/-! ### Values among pairs -/

theorem nodup_names : names.Nodup := by
  decide

theorem lookup?_append (before : List (String × String)) (name value m : String) :
    lookup? (before ++ [(name, value)]) m =
      (lookup? before m).or (if name = m then some value else none) := by
  rw [lookup?, lookup?, List.find?_append]
  cases before.find? fun e => e.1 = m with
  | some e => rfl
  | none => by_cases h : name = m <;> simp [h]

theorem lookup?_eq_none {pairs : List (String × String)} {name : String} (hn : name ∈ names)
    (h : name ∉ given pairs) : lookup? pairs name = none := by
  rw [lookup?, Option.map_eq_none_iff, List.find?_eq_none]
  intro e he
  simp only [decide_eq_true_eq]
  rintro rfl
  exact h (List.mem_filter.mpr ⟨List.mem_map_of_mem he, List.contains_iff_mem.mpr hn⟩)

/-- The slots hold the values of their names, if none is given again. -/
theorem slots_eq {pairs : List (String × String)} (h : (given pairs).Nodup) :
    slots pairs = .ok (slotsOf (lookup? pairs) names) := by
  induction pairs using List.reverseRecOn with
  | nil => rfl
  | append_singleton pairs pair ih =>
    obtain ⟨name, value⟩ := pair
    rw [given_append] at h
    have hnew : name ∈ names → lookup? pairs name = none := by
      intro hn
      rw [if_pos (List.contains_iff_mem.mpr hn)] at h
      refine lookup?_eq_none hn ?_
      intro hg
      exact (List.nodup_append.mp h).2.2 name hg name List.mem_cons_self rfl
    rw [slots_append, ih (List.nodup_append.mp h).1]
    refine (put_slotsOf nodup_names hnew value).trans (congrArg Except.ok (slotsOf_congr ?_))
    intro m hm
    rw [lookup?_append]
    by_cases he : m = name
    · subst he
      simp [hnew hm]
    · simp [he, Ne.symm he]

/-! ### Parameters among pairs -/

section Params

variable {p : Params} {pairs pairs' : List (String × String)} {name : String}

theorem lookup?_eq_some_iff (hn : (pairs.map Prod.fst).Nodup) {value : String} :
    lookup? pairs name = some value ↔ (name, value) ∈ pairs := by
  induction pairs with
  | nil => simp [lookup?]
  | cons e pairs ih =>
    obtain ⟨key, v⟩ := e
    obtain ⟨hnot, hn⟩ := List.nodup_cons.mp hn
    by_cases he : key = name
    · subst he
      have hnot : ∀ w, (key, w) ∉ pairs := fun w hw =>
        hnot (List.mem_map.mpr ⟨(key, w), hw, rfl⟩)
      simp [lookup?, hnot, eq_comm]
    · have hl : lookup? ((key, v) :: pairs) name = lookup? pairs name := by
        simp [lookup?, he]
      rw [hl, ih hn]
      simp [Ne.symm he]

theorem lookup?_perm (h : pairs.Perm pairs') (hn : (pairs.map Prod.fst).Nodup) :
    lookup? pairs = lookup? pairs' := by
  funext name
  have hn' : (pairs'.map Prod.fst).Nodup := (h.map Prod.fst).nodup_iff.mp hn
  ext value
  rw [lookup?_eq_some_iff hn, lookup?_eq_some_iff hn', h.mem_iff]

theorem lookup?_filter (hn : name ∈ names) :
    lookup? (pairs.filter fun e => names.contains e.1) name = lookup? pairs name := by
  rw [lookup?, lookup?, List.find?_filter]
  congr 2
  funext e
  by_cases he : e.1 = name <;> simp [he, hn]

theorem map_fst_filter (pairs : List (String × String)) :
    (pairs.filter fun e => names.contains e.1).map Prod.fst = given pairs := by
  rw [given, List.filter_map]
  rfl

theorem nodup_present (p : Params) : (p.present.map Prod.fst).Nodup := by
  have hs : (p.present.map Prod.fst).Sublist names := by
    rw [Params.present, List.map_filterMap]
    have hf : (fun name => ((p.value? name).map fun value => (name, value)).map Prod.fst) =
        Option.guard fun name => (p.value? name).isSome := by
      funext name
      cases hv : p.value? name <;> simp [Option.guard, hv]
    rw [hf, List.filterMap_eq_filter]
    exact List.filter_sublist
  exact hs.nodup nodup_names

theorem lookup?_present (hn : name ∈ names) : lookup? p.present name = p.value? name := by
  ext value
  rw [lookup?_eq_some_iff (nodup_present p), Params.present]
  simp only [List.mem_filterMap, Option.map_eq_some_iff, Prod.mk.injEq]
  constructor
  · rintro ⟨_, -, _, hv, rfl, rfl⟩
    exact hv
  · intro hv
    exact ⟨name, hn, value, hv, rfl, rfl⟩

theorem valuesOf_congr {value value' : String → Option String} {ns : List String}
    (h : ∀ n ∈ ns, value n = value' n) : valuesOf value ns = valuesOf value' ns := by
  induction ns with
  | nil => rfl
  | cons n ns ih =>
    rw [List.forall_mem_cons] at h
    show ((value n).bind filledText, valuesOf value ns) =
      ((value' n).bind filledText, valuesOf value' ns)
    rw [h.1, ih h.2]

theorem bind_filledText (h : p.Filled) (hn : name ∈ names) :
    (p.value? name).bind filledText = p.value? name := by
  cases hv : p.value? name with
  | none => rfl
  | some value =>
    have hm : (name, value) ∈ p.present :=
      List.mem_filterMap.mpr ⟨name, hn, by rw [hv]; rfl⟩
    have he : value ≠ "" := h _ hm
    simp [filledText, he]

theorem ofValues_value? (h : p.Filled) : Params.ofValues (valuesOf p.value? names) = p := by
  have hf {name : String} (hn : name ∈ names) := bind_filledText h hn
  have hnames : ∀ name ∈ ["timePeriod", "restaurantId", "store", "product", "productId",
      "machineId", "transactionType", "deliveryChannel", "pod", "ocEmailId", "omEmailId"],
      (p.value? name).bind filledText = p.value? name := fun name hn => hf hn
  simp only [List.forall_mem_cons] at hnames
  obtain ⟨h1, h2, h3, h4, h5, h6, h7, h8, h9, h10, h11, -⟩ := hnames
  exact Params.mk.injEq .. |>.mpr ⟨h1, h2, h3, h4, h5, h6, h7, h8, h9, h10, h11⟩

/-- Parameters are read from pairs that give them. -/
theorem ofPairs_of_givenBy (hf : p.Filled) (h : p.GivenBy pairs) :
    Params.ofPairs pairs = .ok p := by
  have hp : (pairs.filter fun e => names.contains e.1).Perm p.present := h
  have hn : ((pairs.filter fun e => names.contains e.1).map Prod.fst).Nodup :=
    (hp.map Prod.fst).nodup_iff.mpr (nodup_present p)
  have hl : ∀ name ∈ names, lookup? pairs name = p.value? name := by
    intro name hname
    rw [← lookup?_filter hname, lookup?_perm hp hn, lookup?_present hname]
  rw [map_fst_filter] at hn
  rw [ofPairs_eq, slots_eq hn]
  show Except.map Params.ofValues (Slots.values (fields names) (slotsOf (lookup? pairs) names)) = _
  rw [values_slotsOf, valuesOf_congr hl]
  exact congrArg Except.ok (ofValues_value? hf)

end Params

end Parameters

end Takings.Filter
