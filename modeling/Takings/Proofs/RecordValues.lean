import Takings.Json.Record
import Takings.Proofs.Outcomes
import Takings.Proofs.Rounding
import Takings.Word

/-!
# Values of records

What is read of a record keeps within the limits of its kinds: counts fit 64 bits, and amounts are
numbers. That holds of objects and of arrays, and of fields that take a default.
-/
namespace Takings.Json

namespace Kind

/-- The limits of a kind. -/
def IsValid : (k : Kind) → k.Value → Prop
  | count, n => Word.Fits n
  | countOrNull, n => ∀ i ∈ n, Word.Fits i
  | amount, x => ∀ y ∈ x, y.IsNumber
  | json, _ | text, _ | textOrNull, _ | textOrBlank, _ | date, _ | timeOrNull, _ => True

theorem isValid_amount_none : amount.IsValid none :=
  fun _ h => (nomatch h)

theorem isValid_countOrNull_none : countOrNull.IsValid none :=
  fun _ h => (nomatch h)

variable {v : Json}

theorem orNull_cases {α : Type} {read : Json → Except DecodeError α} {x : Option α}
    (h : orNull read v = .ok x) : v = .null ∧ x = none ∨ ∃ a, read v = .ok a ∧ x = some a := by
  cases v with
  | null =>
    cases h
    exact .inl ⟨rfl, rfl⟩
  | bool _ | int _ | float _ _ | str _ | arr _ | obj _ =>
    obtain ⟨a, ha, rfl⟩ := map_eq_ok_iff.mp h
    exact .inr ⟨a, ha, rfl⟩

theorem orNull_eq_ok {α : Type} {read : Json → Except DecodeError α} {x : Option α}
    (h : orNull read v = .ok x) : ∀ a ∈ x, read v = .ok a := by
  obtain ⟨-, rfl⟩ | ⟨a, ha, rfl⟩ := orNull_cases h
  · exact fun _ ha => nomatch ha
  · intro b hb
    cases hb
    exact ha

theorem exists_orNull_iff {α : Type} {read : Json → Except DecodeError α} :
    (∃ x, orNull read v = .ok x) ↔ v = .null ∨ ∃ a, read v = .ok a := by
  cases v with
  | null => exact iff_of_true ⟨none, rfl⟩ (.inl rfl)
  | bool _ | int _ | float _ _ | str _ | arr _ | obj _ =>
    simp [orNull, map_eq_ok_iff]

theorem readCount_eq_ok_iff {n : Int} : readCount v = .ok n ↔ v = .int n ∧ Word.Fits n := by
  cases v with
  | int i =>
    rw [readCount]
    split
    · rename_i hi
      rw [Except.ok.injEq, Json.int.injEq]
      exact ⟨fun h => ⟨h, h ▸ hi⟩, And.left⟩
    · rename_i hi
      refine iff_of_false (fun h => nomatch h) ?_
      rintro ⟨hv, hn⟩
      cases hv
      exact hi hn
  | null | bool _ | float _ _ | str _ | arr _ | obj _ => simp [readCount]

theorem isNumber_of_readAmount {x : Binary64} (h : readAmount v = .ok x) : x.IsNumber := by
  cases v with
  | int i =>
    cases h
    exact Binary64.isNumber_ofInt i
  | float y hy =>
    cases h
    exact Binary64.isNumber_of_isFinite hy
  | null | bool _ | str _ | arr _ | obj _ => cases h

theorem isValid_of_read {k : Kind} {x : k.Value} (h : k.read v = .ok x) : k.IsValid x := by
  cases k with
  | count => exact (readCount_eq_ok_iff.mp h).2
  | countOrNull => exact fun i hi => (readCount_eq_ok_iff.mp (orNull_eq_ok h i hi)).2
  | amount => exact fun y hy => isNumber_of_readAmount (orNull_eq_ok h y hy)
  | json | text | textOrNull | textOrBlank | date | timeOrNull => trivial

end Kind

/-! ### Fields -/

/-- The defaults of a field are within the limits of its kind. -/
structure Field.HasValidDefaults (f : Field) : Prop where
  inObject : ∀ x ∈ f.inObject, f.kind.IsValid x
  inArray : ∀ x ∈ f.inArray, f.kind.IsValid x

theorem Field.hasValidDefaults_optional (name : String) {kind : Kind} {value : kind.Value}
    (h : kind.IsValid value) : (Field.optional name kind value).HasValidDefaults := by
  constructor <;>
  · intro x hx
    cases hx
    exact h

theorem Field.hasValidDefaults_required (name : String) (kind : Kind) :
    (Field.required name kind).HasValidDefaults := by
  constructor <;>
  · intro x hx
    cases hx

def Values.AreValid : (fs : List Field) → Values fs → Prop
  | [], _ => True
  | f :: fs, (x, xs) => f.kind.IsValid x ∧ AreValid fs xs

def Slots.AreValid : (fs : List Field) → Slots fs → Prop
  | [], _ => True
  | f :: fs, (slot, rest) => (∀ x ∈ slot, f.kind.IsValid x) ∧ AreValid fs rest

section Fields

variable {fs : List Field} {r : Record} {v : Json}

namespace Slots

theorem areValid_empty (fs : List Field) : AreValid fs (empty fs) := by
  induction fs with
  | nil => trivial
  | cons f fs ih => exact ⟨fun _ hx => (nomatch hx), ih⟩

/-- One member more. -/
theorem areValid_put {s s' : Slots fs} {m : String × Json} (hs : AreValid fs s)
    (h : put fs s m = .ok s') : AreValid fs s' := by
  induction fs with
  | nil => trivial
  | cons f fs ih =>
    obtain ⟨slot, rest⟩ := s
    obtain ⟨key, v⟩ := m
    simp only [put] at h
    split at h
    · cases slot with
      | some x => cases h
      | none =>
        obtain ⟨x, hx, rfl⟩ := map_eq_ok_iff.mp h
        refine ⟨?_, hs.2⟩
        intro y hy
        cases hy
        exact Kind.isValid_of_read hx
    · obtain ⟨rest', hr, rfl⟩ := map_eq_ok_iff.mp h
      exact ⟨hs.1, ih hs.2 hr⟩

theorem areValid_foldlM {members : List (String × Json)} {s s' : Slots fs} (hs : AreValid fs s)
    (h : members.foldlM (put fs) s = .ok s') : AreValid fs s' := by
  induction members generalizing s with
  | nil =>
    cases h
    exact hs
  | cons m members ih =>
    rw [List.foldlM_cons] at h
    obtain ⟨t, ht, h⟩ := bind_eq_ok_iff.mp h
    exact ih (areValid_put hs ht) h

/-- All members have been read. -/
theorem areValid_values {s : Slots fs} {xs : Values fs} (hd : ∀ f ∈ fs, f.HasValidDefaults)
    (hs : AreValid fs s) (h : values fs s = .ok xs) : Values.AreValid fs xs := by
  induction fs with
  | nil => trivial
  | cons f fs ih =>
    obtain ⟨slot, rest⟩ := s
    obtain ⟨hf, hfs⟩ := List.forall_mem_cons.mp hd
    rw [values] at h
    cases ho : slot.or f.inObject with
    | none =>
      rw [ho] at h
      cases h
    | some x =>
      rw [ho] at h
      obtain ⟨ys, hys, rfl⟩ := map_eq_ok_iff.mp h
      refine ⟨?_, ih hfs hs.2 hys⟩
      rcases Option.or_eq_some_iff.mp ho with hx | ⟨-, hx⟩
      · exact hs.1 x hx
      · exact hf.inObject x hx

end Slots

namespace Record

theorem areValid_readItems {i : Nat} {items rest : List Json} {xs : Values fs}
    (hd : ∀ f ∈ fs, f.HasValidDefaults) (h : r.readItems fs i items = .ok (xs, rest)) :
    Values.AreValid fs xs := by
  induction fs generalizing i items with
  | nil => trivial
  | cons f fs ih =>
    obtain ⟨hf, hfs⟩ := List.forall_mem_cons.mp hd
    cases items with
    | nil =>
      rw [readItems] at h
      cases ha : f.inArray with
      | none =>
        rw [ha] at h
        cases h
      | some x =>
        rw [ha] at h
        obtain ⟨⟨ys, left⟩, hys, hx⟩ := map_eq_ok_iff.mp h
        cases hx
        exact ⟨hf.inArray x ha, ih hfs hys⟩
    | cons v items =>
      rw [readItems] at h
      obtain ⟨x, hx, h⟩ := bind_eq_ok_iff.mp h
      obtain ⟨⟨ys, left⟩, hys, h⟩ := bind_eq_ok_iff.mp h
      cases h
      exact ⟨Kind.isValid_of_read hx, ih hfs hys⟩

/-- What is read of a record is within the limits of its kinds. -/
theorem areValid_read {xs : Values r.fields} (hd : ∀ f ∈ r.fields, f.HasValidDefaults)
    (h : r.read v = .ok xs) : Values.AreValid r.fields xs := by
  cases v with
  | obj members =>
    obtain ⟨s, hs, hv⟩ := bind_eq_ok_iff.mp h
    exact Slots.areValid_values hd (Slots.areValid_foldlM (Slots.areValid_empty _) hs) hv
  | arr items =>
    obtain ⟨⟨ys, rest⟩, hys, h⟩ := bind_eq_ok_iff.mp h
    dsimp only at h
    split at h
    · cases h
      exact areValid_readItems hd hys
    · cases h
  | null | bool _ | int _ | float _ _ | str _ => cases h

end Record

end Fields

end Takings.Json
