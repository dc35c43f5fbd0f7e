/-!
# White space

The characters with the Unicode property White_Space, and texts with them taken off both ends.
-/
namespace Takings.Text

/-- The characters with the Unicode property White_Space. -/
def isBlank (c : Char) : Bool :=
  let n := c.toNat
  (9 ≤ n && n ≤ 13) || n == 0x20 || n == 0x85 || n == 0xA0 || n == 0x1680 ||
    (0x2000 ≤ n && n ≤ 0x200A) || n == 0x2028 || n == 0x2029 || n == 0x202F ||
    n == 0x205F || n == 0x3000

/-- Drops the white space in front. -/
def skipBlank (cs : List Char) : List Char :=
  cs.dropWhile isBlank

/-- Drops the white space in front and at the end. -/
def trimList (cs : List Char) : List Char :=
  (skipBlank (skipBlank cs).reverse).reverse

def trim (s : String) : String :=
  String.ofList (trimList s.toList)

theorem skipBlank_append (cs ds : List Char) :
    skipBlank (cs ++ ds) = if (skipBlank cs).isEmpty then skipBlank ds else skipBlank cs ++ ds :=
  List.dropWhile_append

theorem skipBlank_append_of_blank {pad : List Char} (h : ∀ c ∈ pad, isBlank c = true)
    (cs : List Char) : skipBlank (pad ++ cs) = skipBlank cs :=
  List.dropWhile_append_of_pos h

theorem trimList_pad {before after : List Char} (hb : ∀ c ∈ before, isBlank c = true)
    (ha : ∀ c ∈ after, isBlank c = true) (cs : List Char) :
    trimList (before ++ (cs ++ after)) = trimList cs := by
  rw [trimList, trimList, skipBlank_append_of_blank hb, skipBlank_append]
  split
  · have hs : skipBlank after = [] := by
      rw [← List.append_nil after, skipBlank_append_of_blank ha]
      rfl
    rename_i he
    rw [hs, List.isEmpty_iff.mp he]
  · have hr : ∀ c ∈ after.reverse, isBlank c = true := by
      intro c hc
      exact ha c (List.mem_reverse.mp hc)
    rw [List.reverse_append, skipBlank_append_of_blank hr]

/-- White space around a text does not count. -/
theorem trim_pad {before after : String} (hb : ∀ c ∈ before.toList, isBlank c = true)
    (ha : ∀ c ∈ after.toList, isBlank c = true) (s : String) :
    trim (before ++ s ++ after) = trim s := by
  rw [trim, trim, String.toList_append, String.toList_append, List.append_assoc,
    trimList_pad hb ha]

theorem skipBlank_skipBlank (cs : List Char) : skipBlank (skipBlank cs) = skipBlank cs := by
  induction cs with
  | nil => rfl
  | cons c cs ih =>
    cases hc : isBlank c with
    | true =>
      have hs : skipBlank (c :: cs) = skipBlank cs := List.dropWhile_cons_of_pos hc
      rw [hs, ih]
    | false =>
      have hs : skipBlank (c :: cs) = c :: cs := List.dropWhile_cons_of_neg (by simp [hc])
      rw [hs, hs]

/-- A text that begins like one without white space in front has none either. -/
theorem skipBlank_of_prefix {cs ds : List Char} (h : cs <+: skipBlank ds) : skipBlank cs = cs := by
  cases cs with
  | nil => rfl
  | cons c cs =>
    obtain ⟨rest, hr⟩ := h
    have hs := skipBlank_skipBlank ds
    rw [← hr, List.cons_append] at hs
    cases hc : isBlank c with
    | true =>
      rw [skipBlank, List.dropWhile_cons_of_pos hc] at hs
      have hl := (List.dropWhile_sublist (l := cs ++ rest) isBlank).length_le
      rw [hs, List.length_cons] at hl
      omega
    | false => exact List.dropWhile_cons_of_neg (by simp [hc])

theorem trimList_trimList (cs : List Char) : trimList (trimList cs) = trimList cs := by
  have hp : trimList cs <+: skipBlank cs := by
    rw [trimList, ← List.reverse_suffix, List.reverse_reverse]
    exact List.dropWhile_suffix _
  rw [trimList, skipBlank_of_prefix hp, trimList, List.reverse_reverse, skipBlank_skipBlank]

/-- A text without white space around it stays as it is. -/
theorem trim_trim (s : String) : trim (trim s) = trim s := by
  rw [trim, trim, String.toList_ofList, trimList_trimList]

theorem mem_skipBlank {c : Char} {cs : List Char} (hc : isBlank c = false) (h : c ∈ cs) :
    c ∈ skipBlank cs := by
  induction cs with
  | nil => cases h
  | cons d ds ih =>
    cases hd : isBlank d with
    | true =>
      have hne : c ≠ d := by
        rintro rfl
        rw [hc] at hd
        cases hd
      rw [skipBlank, List.dropWhile_cons_of_pos hd]
      exact ih (List.mem_of_ne_of_mem hne h)
    | false => rwa [skipBlank, List.dropWhile_cons_of_neg (by simp [hd])]

theorem mem_trim {c : Char} {s : String} (hc : isBlank c = false) (h : c ∈ s.toList) :
    c ∈ (trim s).toList := by
  rw [trim, String.toList_ofList, trimList, List.mem_reverse]
  exact mem_skipBlank hc (List.mem_reverse.mpr (mem_skipBlank hc h))

end Takings.Text
