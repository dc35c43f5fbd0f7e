import Mathlib.Data.List.Forall2
import Mathlib.Data.List.Perm.Basic
import Takings.Query.Run

/-!
# Good outcomes

An outcome that is made of others is good exactly if these are. So rows are read exactly if every
single one is, and then any part of them, in any order.
-/
namespace Takings

theorem bind_eq_ok_iff {ε α β : Type} {x : Except ε α} {f : α → Except ε β} {b : β} :
    (x >>= f) = .ok b ↔ ∃ a, x = .ok a ∧ f a = .ok b := by
  cases x <;> simp [Bind.bind, Except.bind]

theorem map_eq_ok_iff {ε α β : Type} {x : Except ε α} {f : α → β} {b : β} :
    x.map f = .ok b ↔ ∃ a, x = .ok a ∧ f a = b := by
  cases x <;> simp [Except.map]

theorem mapError_eq_ok_iff {ε ε' α : Type} {x : Except ε α} {f : ε → ε'} {a : α} :
    x.mapError f = .ok a ↔ x = .ok a := by
  cases x <;> simp [Except.mapError]

section Rows

variable {α : Type} {what : String} {read : Json → Except Json.DecodeError α} {vs ws : List Json}
  {rows : List α}

theorem readRows_cons (v : Json) (vs : List Json) : readRows what read (v :: vs) =
    ((read v).mapError fun e => .query ("unexpected " ++ what ++ ": " ++ e.message)) >>=
      fun row => (readRows what read vs).map (row :: ·) := by
  rw [readRows, List.mapM_cons]
  rfl

theorem readRows_eq_ok_iff :
    readRows what read vs = .ok rows ↔ List.Forall₂ (fun v row => read v = .ok row) vs rows := by
  induction vs generalizing rows with
  | nil => cases rows <;> simp [readRows, pure, Except.pure]
  | cons v vs ih =>
    rw [readRows_cons]
    cases hv : read v with
    | error e => cases rows <;> simp [bind, Except.bind, Except.mapError, hv]
    | ok row =>
      cases hvs : readRows what read vs <;> cases rows <;>
        simp [bind, Except.bind, Except.mapError, Except.map, ← ih, hv, hvs]

theorem readRows_take (h : readRows what read vs = .ok rows) (n : Nat) :
    readRows what read (vs.take n) = .ok (rows.take n) :=
  readRows_eq_ok_iff.mpr (List.forall₂_take n (readRows_eq_ok_iff.mp h))

theorem readRows_of_perm (hp : ws.Perm vs) (h : readRows what read ws = .ok rows) :
    ∃ rows', readRows what read vs = .ok rows' ∧ rows'.Perm rows := by
  obtain ⟨rows', h', hperm⟩ := List.perm_comp_forall₂ hp.symm (readRows_eq_ok_iff.mp h)
  exact ⟨rows', readRows_eq_ok_iff.mpr h', hperm⟩

/-- Rows that are read have what values that are read have. -/
theorem forall_of_readRows {P : α → Prop} (h : readRows what read vs = .ok rows)
    (hp : ∀ v row, read v = .ok row → P row) : ∀ row ∈ rows, P row := by
  have hrows := readRows_eq_ok_iff.mp h
  clear h
  induction hrows with
  | nil => exact fun _ hm => nomatch hm
  | cons hv _ ih => exact List.forall_mem_cons.mpr ⟨hp _ _ hv, ih⟩

end Rows

end Takings
