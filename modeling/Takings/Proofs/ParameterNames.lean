import Mathlib.Data.List.Induction
import Takings.Filter.Params

/-!
# Names of parameters

The parameters of a report are read from names and values one after the other. Names that no
parameter has are passed over, and whatever the values, reading fails exactly if the name of a
parameter comes again: with the first one that does.
-/
namespace Takings.Filter.Parameters

open Json

/-- The names of all parameters. -/
def names : List String :=
  Params.record.fields.map Field.name

/-- The given names of parameters, in order. -/
def given (pairs : List (String × String)) : List String :=
  (pairs.map Prod.fst).filter fun name => names.contains name

/-- The first name of a parameter that comes again among pairs. -/
def FirstAgain (pairs : List (String × String)) (name : String) : Prop :=
  ∃ before value after, pairs = before ++ (name, value) :: after ∧ (given before).Nodup ∧
    name ∈ given before

/-! ### Slots -/

/-- The fields of parameters of these names. -/
abbrev fields (ns : List String) : List Field :=
  ns.map Params.parameter

/-- Whether the slot of a name is filled. -/
def filled : (ns : List String) → Slots (fields ns) → String → Bool
  | [], _, _ => false
  | n :: ns, (slot, rest), name => if name = n then slot.isSome else filled ns rest name

section Slots

variable {n : String} {ns : List String} {slot : Option (Params.parameter n).kind.Value}
  {rest : Slots (fields ns)} {s : Slots (fields ns)} {name value : String}

theorem filled_cons (slot : Option (Params.parameter n).kind.Value) (rest : Slots (fields ns))
    (name : String) : filled (n :: ns) (slot, rest) name =
      if name = n then slot.isSome else filled ns rest name :=
  rfl

/-- A text goes into the slot of its name, unless that is filled. -/
theorem put_cons : Slots.put (fields (n :: ns)) (slot, rest) (name, .str value) =
    if name = n then
      match slot with
      | some _ => .error (.duplicateField n)
      | none => ((Params.parameter n).kind.read (.str value)).map fun x => (some x, rest)
    else (Slots.put (fields ns) rest (name, .str value)).map fun rest => (slot, rest) := by
  have hn : (Params.parameter n).isNamed name = (name == n || [].contains name) := rfl
  have hp : Slots.put (fields (n :: ns)) (slot, rest) (name, .str value) =
      if (Params.parameter n).isNamed name then
        match slot with
        | some _ => .error (.duplicateField n)
        | none => ((Params.parameter n).kind.read (.str value)).map fun x => (some x, rest)
      else (Slots.put (fields ns) rest (name, .str value)).map fun rest => (slot, rest) := by
    cases slot <;> rfl
  rw [hp, hn]
  simp

theorem filled_empty (ns : List String) (name : String) :
    filled ns (Slots.empty (fields ns)) name = false := by
  induction ns with
  | nil => rfl
  | cons n ns ih =>
    have hs : Slots.empty (fields (n :: ns)) = (none, Slots.empty (fields ns)) := rfl
    rw [hs, filled_cons, ih]
    simp

theorem put_of_filled (h : filled ns s name = true) :
    Slots.put (fields ns) s (name, .str value) = .error (.duplicateField name) := by
  induction ns with
  | nil => cases h
  | cons n ns ih =>
    obtain ⟨slot, rest⟩ := s
    rw [filled_cons] at h
    rw [put_cons]
    by_cases hn : name = n
    · rw [if_pos hn] at h ⊢
      cases slot with
      | none => cases h
      | some x => rw [hn]
    · rw [if_neg hn] at h ⊢
      rw [ih h]
      rfl

theorem put_of_not_filled (h : filled ns s name = false) :
    ∃ s', Slots.put (fields ns) s (name, .str value) = .ok s' ∧
      ∀ m, filled ns s' m = (filled ns s m || (m == name && ns.contains name)) := by
  induction ns with
  | nil => exact ⟨s, rfl, fun m => by simp [filled]⟩
  | cons n ns ih =>
    obtain ⟨slot, rest⟩ := s
    rw [filled_cons] at h
    rw [put_cons]
    by_cases hn : name = n
    · rw [if_pos hn] at h ⊢
      cases slot with
      | some x => cases h
      | none =>
        obtain ⟨x, hx⟩ : ∃ x, (Params.parameter n).kind.read (.str value) = .ok x := ⟨_, rfl⟩
        rw [hx]
        refine ⟨(some x, rest), rfl, ?_⟩
        intro m
        rw [filled_cons, filled_cons]
        by_cases hm : m = n <;> simp [hm, hn]
    · rw [if_neg hn] at h ⊢
      obtain ⟨s', hs, hf⟩ := ih h
      rw [hs]
      refine ⟨_, rfl, ?_⟩
      intro m
      rw [filled_cons, filled_cons, hf]
      by_cases hm : m = n
      · have hne : n ≠ name := fun he => hn he.symm
        simp [hm, hne]
      · simp [hm, hn]

/-- No parameter is required. -/
theorem exists_values (s : Slots (fields ns)) : ∃ xs, Slots.values (fields ns) s = .ok xs := by
  induction ns with
  | nil => exact ⟨(), rfl⟩
  | cons n ns ih =>
    obtain ⟨slot, rest⟩ := s
    obtain ⟨xs, hxs⟩ := ih rest
    have hv (x : (Params.parameter n).kind.Value) : Slots.values (fields (n :: ns)) (some x, rest) =
        (Slots.values (fields ns) rest).map fun xs => (x, xs) := rfl
    cases slot with
    | some x => exact ⟨_, (hv x).trans (congrArg _ hxs)⟩
    | none => exact ⟨_, (hv none).trans (congrArg _ hxs)⟩

end Slots

/-! ### Pairs -/

theorem given_append (before : List (String × String)) (name value : String) :
    given (before ++ [(name, value)]) =
      given before ++ if names.contains name then [name] else [] := by
  simp only [given, List.map_append, List.filter_append, List.map_cons, List.map_nil,
    List.filter_cons, List.filter_nil]

/-- The slots after pairs, or why there are none. -/
def slots (pairs : List (String × String)) : Except DecodeError (Slots (fields names)) :=
  (pairs.map fun (name, value) => (name, Json.str value)).foldlM (Slots.put (fields names))
    (Slots.empty (fields names))

theorem slots_append (before : List (String × String)) (name value : String) :
    slots (before ++ [(name, value)]) =
      (slots before).bind fun s => Slots.put (fields names) s (name, .str value) := by
  rw [slots, List.map_append, List.foldlM_append]
  show (slots before).bind _ = _
  congr 1
  funext s
  exact bind_pure _

/-- Pairs fill the slots of the given names, as long as none comes again. -/
theorem slots_cases (pairs : List (String × String)) :
    ((given pairs).Nodup ∧ ∃ s, slots pairs = .ok s ∧
      ∀ name, filled names s name = (given pairs).contains name) ∨
    ∃ name, FirstAgain pairs name ∧ slots pairs = .error (.duplicateField name) := by
  induction pairs using List.reverseRecOn with
  | nil => exact .inl ⟨List.nodup_nil, _, rfl, filled_empty names⟩
  | append_singleton pairs pair ih =>
    obtain ⟨name, value⟩ := pair
    rw [given_append, slots_append]
    rcases ih with ⟨hn, s, hs, hf⟩ | ⟨again, ⟨before, v, after, rfl, hn, hm⟩, hs⟩
    · rw [hs]
      cases hfilled : filled names s name with
      | true =>
        right
        have hg : name ∈ given pairs := by
          rw [hf] at hfilled
          exact List.contains_iff_mem.mp hfilled
        exact ⟨name, ⟨pairs, value, [], rfl, hn, hg⟩, put_of_filled hfilled⟩
      | false =>
        left
        obtain ⟨s', hs', hf'⟩ : ∃ s', Slots.put (fields names) s (name, .str value) = .ok s' ∧ _ :=
          put_of_not_filled hfilled
        have hg : name ∉ given pairs := by
          rw [hf] at hfilled
          simpa using hfilled
        refine ⟨?_, s', hs', ?_⟩
        · split
          · refine List.nodup_append.mpr ⟨hn, by simp, ?_⟩
            intro m hm _ hname
            rw [List.mem_singleton.mp hname]
            rintro rfl
            exact hg hm
          · rwa [List.append_nil]
        · intro m
          rw [hf', hf, Bool.eq_iff_iff]
          by_cases hc : name ∈ names <;> simp [hc]
    · right
      rw [hs]
      exact ⟨again, ⟨before, v, after ++ [(name, value)], by simp, hn, hm⟩, rfl⟩

theorem ofPairs_eq (pairs : List (String × String)) : Params.ofPairs pairs =
    ((slots pairs).bind (Slots.values (fields names))).map Params.ofValues :=
  rfl

theorem not_nodup_of_firstAgain {pairs : List (String × String)} {name : String}
    (h : FirstAgain pairs name) : ¬ (given pairs).Nodup := by
  obtain ⟨before, value, after, rfl, -, hm⟩ := h
  have hc : names.contains name = true := (List.mem_filter.mp hm).2
  have hg : given (before ++ (name, value) :: after) = given before ++ name :: given after := by
    simp only [given, List.map_append, List.filter_append, List.map_cons, List.filter_cons, hc,
      if_true]
  rw [hg]
  intro hn
  exact (List.nodup_append.mp hn).2.2 name hm name List.mem_cons_self rfl

/-- Parameters are read from pairs unless one is given again; then it is the first such one that
decides the error. -/
theorem ofPairs_cases (pairs : List (String × String)) :
    ((given pairs).Nodup ∧ ∃ p, Params.ofPairs pairs = .ok p) ∨
      (¬ (given pairs).Nodup ∧ ∃ name, FirstAgain pairs name ∧
        Params.ofPairs pairs = .error (.duplicateField name)) := by
  rw [ofPairs_eq]
  rcases slots_cases pairs with ⟨hn, s, hs, -⟩ | ⟨name, ha, hs⟩
  · obtain ⟨xs, hxs⟩ := exists_values s
    left
    exact ⟨hn, Params.ofValues xs, by rw [hs]; exact congrArg _ hxs⟩
  · right
    rw [hs]
    exact ⟨not_nodup_of_firstAgain ha, name, ha, rfl⟩

end Takings.Filter.Parameters
