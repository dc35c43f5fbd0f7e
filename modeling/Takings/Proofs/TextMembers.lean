import Takings.Json.Writer
import Takings.Proofs.ColumnValues
import Takings.Proofs.CompositeText
import Takings.Proofs.CompositeValues

/-!
# Objects of texts

An object whose members are texts is read back from its own text, unless its first name is that of
an envelope.
-/
namespace Takings.Json

/-- Members that are texts. -/
def texts (l : List (String × String)) : List (String × Json) :=
  l.map fun (name, s) => (name, .str s)

/-! ### Objects in order -/

theorem insert_of_forall_lt {name : String} {v : Json} {l : List (String × Json)}
    (h : ∀ m ∈ l, m.1 < name) : insert name v l = l ++ [(name, v)] := by
  induction l with
  | nil => rfl
  | cons e l ih =>
    obtain ⟨k, w⟩ := e
    obtain ⟨hk, hl⟩ := List.forall_mem_cons.mp h
    have hne : name ≠ k := by
      rintro rfl
      exact String.lt_irrefl _ hk
    have hnot : ¬ name < k := fun hlt => String.lt_irrefl _ (String.lt_trans hlt hk)
    rw [insert, if_neg hnot, if_neg hne, ih hl, List.cons_append]

theorem foldl_insert_of_namesAscend {l members : List (String × Json)}
    (h : NamesAscend (l ++ members)) :
    members.foldl (fun l (k, v) => insert k v l) l = l ++ members := by
  induction members generalizing l with
  | nil => simp
  | cons m members ih =>
    obtain ⟨k, v⟩ := m
    have hk : ∀ e ∈ l, e.1 < k := fun e he =>
      (List.pairwise_append.mp h).2.2 e he (k, v) List.mem_cons_self
    rw [List.append_cons] at h ⊢
    show members.foldl _ (insert k v l) = _
    rw [insert_of_forall_lt hk, ih h]

/-- Members in the order of their names are an object as they stand. -/
theorem object_of_namesAscend {l : List (String × Json)} (h : NamesAscend l) :
    object l = .obj l :=
  congrArg Json.obj (foldl_insert_of_namesAscend (l := []) h)

/-! ### Reading back -/

namespace Reader

open Takings.Json.Tree (skipGap)

variable {inner : List Char → Except Fault Json} {depth : Nat}

theorem name_quote (k : String) (rest : List Char) :
    name (quote k ++ ':' :: rest) = .ok (k, rest) := by
  obtain ⟨l, hl, hread⟩ := Literal.exists_read_quote k
  exact name_eq_ok_iff.mpr ⟨l, _, hread _, Literal.denotes_of_text? hl, rfl⟩

theorem value_quote (s : String) (rest : List Char) :
    value inner depth (quote s ++ rest) = .ok (.str s, rest) := by
  obtain ⟨l, hl, hread⟩ := Literal.exists_read_quote s
  obtain ⟨q, hq, hliteral⟩ := Tree.eq_cons_of_readKey (hread rest)
  have hs : string q = .ok (s, rest) :=
    string_eq_ok_iff.mpr ⟨l, hliteral, Literal.denotes_of_text? hl⟩
  have hscalar : value inner depth ('"' :: q) = scalar ('"' :: q) := by
    cases depth <;> rfl
  rw [hq, hscalar]
  show (string q).map _ = _
  rw [hs]
  rfl

/-- What is written of members that are texts is read back, up to the brace that ends them. -/
theorem members_texts (k s : String) (l : List (String × String)) {n : Nat} (hn : l.length < n)
    (rest : List Char) :
    members (value inner depth) n
        (quote k ++ ':' :: (quote s ++ (writeMembers (texts l) ++ rest))) =
      .ok ((k, .str s) :: texts l, rest) := by
  induction l generalizing k s n with
  | nil =>
    obtain ⟨n, rfl⟩ : ∃ m, n = m + 1 := ⟨n - 1, by omega⟩
    refine bind_eq_ok_iff.mpr ⟨_, name_quote k _, bind_eq_ok_iff.mpr ⟨_, value_quote s _, ?_⟩⟩
    rfl
  | cons e l ih =>
    obtain ⟨k', s'⟩ := e
    obtain ⟨n, rfl⟩ : ∃ m, n = m + 1 := ⟨n - 1, by omega⟩
    refine bind_eq_ok_iff.mpr ⟨_, name_quote k _, bind_eq_ok_iff.mpr ⟨_, value_quote s _, ?_⟩⟩
    have hrest := ih k' s' (n := n) (by simpa using hn)
    have htext : writeMembers (texts ((k', s') :: l)) ++ rest =
        ',' :: (quote k' ++ ':' :: (quote s' ++ (writeMembers (texts l) ++ rest))) := by
      simp [texts, writeMembers, write]
    rw [htext]
    show (members (value inner depth) n (quote k' ++ ':' ::
      (quote s' ++ (writeMembers (texts l) ++ rest)))).map _ = _
    rw [hrest]
    rfl

theorem length_le_writeMembers (l : List (String × String)) :
    l.length ≤ (writeMembers (texts l)).length := by
  induction l with
  | nil => exact Nat.zero_le _
  | cons e l ih =>
    simp only [texts, List.map_cons, writeMembers, List.length_cons, List.length_append] at ih ⊢
    omega

theorem object_texts {k : String} (hk : k ≠ envelopeName) (s : String)
    (l : List (String × String)) (rest : List Char) :
    object inner (value inner depth)
        (quote k ++ ':' :: (quote s ++ (writeMembers (texts l) ++ rest))) =
      .ok (Json.object (texts ((k, s) :: l)), rest) := by
  have hlength : l.length <
      (quote k ++ ':' :: (quote s ++ (writeMembers (texts l) ++ rest))).length := by
    have hle := length_le_writeMembers l
    simp only [List.length_append, List.length_cons]
    omega
  refine bind_eq_ok_iff.mpr ⟨(k, _), name_quote k _, ?_⟩
  refine (if_neg hk).trans ?_
  exact map_eq_ok_iff.mpr ⟨_, members_texts k s l hlength rest, rfl⟩

end Reader

/-- An object of texts is what its own text denotes. -/
theorem read_text_of_texts {k s : String} {l : List (String × String)} (hk : k ≠ envelopeName)
    (h : NamesAscend (texts ((k, s) :: l))) :
    read (text (.obj (texts ((k, s) :: l)))) = .ok (.obj (texts ((k, s) :: l))) := by
  have htext : (text (.obj (texts ((k, s) :: l)))).toList =
      '{' :: (quote k ++ ':' :: (quote s ++ (writeMembers (texts l) ++ []))) := by
    rw [text, String.toList_ofList]
    simp [texts, write]
  rw [read, htext]
  refine Reader.text_eq_ok_iff.mpr ⟨[], ?_, rfl⟩
  rw [← object_of_namesAscend h]
  exact Reader.object_texts hk s l []

end Takings.Json
