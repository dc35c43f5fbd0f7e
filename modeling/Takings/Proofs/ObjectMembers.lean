import Takings.Json.Value

/-!
# Members of objects

An object has the members that it is made of; of those with one name it has the last.
-/
namespace Takings.Json

/-- The value of a member of an object. -/
def member? (name : String) : Json → Option Json
  | .obj members => (members.find? fun m => m.1 = name).map Prod.snd
  | _ => none

theorem find?_insert (name n : String) (v : Json) (l : List (String × Json)) :
    (insert name v l).find? (fun m => m.1 = n) =
      if name = n then some (name, v) else l.find? fun m => m.1 = n := by
  induction l with
  | nil => by_cases h : name = n <;> simp [insert, h]
  | cons m l ih =>
    obtain ⟨k, w⟩ := m
    rw [insert]
    split
    · by_cases h : name = n <;> simp [h]
    · split
      · rename_i hk
        subst hk
        by_cases h : name = n <;> simp [h]
      · rename_i hk
        by_cases h : k = n
        · have hne : name ≠ n := fun he => hk (he.trans h.symm)
          simp [h, hne]
        · simp [h, ih]

theorem find?_foldl_insert (name : String) (members l : List (String × Json)) :
    (members.foldl (fun l (k, v) => insert k v l) l).find? (fun m => m.1 = name) =
      (members.reverse.find? fun m => m.1 = name).or (l.find? fun m => m.1 = name) := by
  induction members generalizing l with
  | nil => rfl
  | cons m members ih =>
    obtain ⟨k, v⟩ := m
    rw [List.foldl_cons, ih, find?_insert, List.reverse_cons, List.find?_append]
    by_cases h : k = name
    · subst h
      cases members.reverse.find? fun m => m.1 = k <;> simp
    · simp [h]

theorem member?_object (name : String) (members : List (String × Json)) :
    (object members).member? name = (members.reverse.find? fun m => m.1 = name).map Prod.snd := by
  rw [object, member?, find?_foldl_insert]
  simp

end Takings.Json
