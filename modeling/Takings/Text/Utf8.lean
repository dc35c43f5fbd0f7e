/-!
# UTF-8

The bytes of a text, and the text of bytes. Bytes that are no UTF-8 are told apart in maximal
pieces: a leading byte with the following bytes that could continue it.
-/
namespace Takings.Text.Utf8

def encode (cs : List Char) : List UInt8 :=
  cs.flatMap String.utf8EncodeChar

/-- The bytes that may follow a leading byte: how many, and the range of the first of them. -/
def followers (b : UInt8) : Option (Nat × UInt8 × UInt8) :=
  if 0xC2 ≤ b ∧ b ≤ 0xDF then some (1, 0x80, 0xBF)
  else if b = 0xE0 then some (2, 0xA0, 0xBF)
  else if b = 0xED then some (2, 0x80, 0x9F)
  else if 0xE1 ≤ b ∧ b ≤ 0xEF then some (2, 0x80, 0xBF)
  else if b = 0xF0 then some (3, 0x90, 0xBF)
  else if 0xF1 ≤ b ∧ b ≤ 0xF3 then some (3, 0x80, 0xBF)
  else if b = 0xF4 then some (3, 0x80, 0x8F)
  else none

/-- Up to `n` following bytes, the first of them in the given range: those found and the rest. -/
def takeFollowers : Nat → UInt8 → UInt8 → List UInt8 → List UInt8 × List UInt8
  | 0, _, _, bs => ([], bs)
  | _ + 1, _, _, [] => ([], [])
  | n + 1, lo, hi, b :: bs =>
    if lo ≤ b ∧ b ≤ hi then
      let (found, rest) := takeFollowers n 0x80 0xBF bs
      (b :: found, rest)
    else ([], b :: bs)

theorem takeFollowers_length (n : Nat) (lo hi : UInt8) (bs : List UInt8) :
    (takeFollowers n lo hi bs).2.length ≤ bs.length := by
  fun_induction takeFollowers n lo hi bs <;> simp_all
  omega

/-- What stands at the front of a run of bytes. -/
inductive Front where
  | char (c : Char)
  /-- A piece of `length` bytes that is no character; `atEnd` if more bytes might mend it. -/
  | piece (length : Nat) (atEnd : Bool)
  deriving DecidableEq, Repr

/-- The character or the wrong piece that a leading byte begins. -/
def front (b : UInt8) (bs : List UInt8) : Front × List UInt8 :=
  if b < 0x80 then (.char (Char.ofNat b.toNat), bs)
  else
    match followers b with
    | none => (.piece 1 false, bs)
    | some (n, lo, hi) =>
      let (found, rest) := takeFollowers n lo hi bs
      if found.length = n then
        let high := b.toNat % (64 >>> n)
        (.char (Char.ofNat (found.foldl (fun v f => 64 * v + f.toNat % 64) high)), rest)
      else (.piece (found.length + 1) rest.isEmpty, rest)

theorem front_length (b : UInt8) (bs : List UInt8) : (front b bs).2.length ≤ bs.length := by
  unfold front
  split
  · simp
  · split
    · simp
    · rename_i n lo hi _
      have := takeFollowers_length n lo hi bs
      simp only
      split <;> simpa using this

/-- The text of bytes, with U+FFFD for each piece that is no character. -/
def decodeLossy : List UInt8 → List Char
  | [] => []
  | b :: bs =>
    match (front b bs).1 with
    | .char c => c :: decodeLossy (front b bs).2
    | .piece _ _ => '\uFFFD' :: decodeLossy (front b bs).2
  termination_by bs => bs.length
  decreasing_by
    all_goals
      have := front_length b bs
      simp only [List.length_cons]
      omega

/-- Where bytes stop being UTF-8. -/
inductive Fault where
  | wrong (length index : Nat)
  | incomplete (index : Nat)
  deriving DecidableEq, Repr

/-- The text of bytes that are UTF-8, or the first place where they are not. -/
def decodeFrom (index : Nat) : List UInt8 → Except Fault (List Char)
  | [] => .ok []
  | b :: bs =>
    match (front b bs).1 with
    | .char c =>
      (decodeFrom (index + (bs.length + 1 - (front b bs).2.length)) (front b bs).2).map (c :: ·)
    | .piece n atEnd => .error (if atEnd then .incomplete index else .wrong n index)
  termination_by bs => bs.length
  decreasing_by
    all_goals
      have := front_length b bs
      simp only [List.length_cons]
      omega

def decode (bs : List UInt8) : Except Fault (List Char) :=
  decodeFrom 0 bs

end Takings.Text.Utf8
