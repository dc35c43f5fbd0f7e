import Takings.Json.Kind

/-!
# Records

Records with declared fields, read from objects and from arrays. The members of an object are
visited in their order, so of several bad ones the first decides the error; a field that is left
out is noticed last. The items of an array are the fields in declared order.
-/
namespace Takings.Json

/-- A field of a record. -/
structure Field where
  name : String
  /-- Further names of the field. -/
  others : List String
  kind : Kind
  /-- The value of the field in an object without it; none if it is required. -/
  inObject : Option kind.Value
  /-- The value of the field in an array that ends before it; none if it is required. -/
  inArray : Option kind.Value

namespace Field

def required (name : String) (kind : Kind) : Field :=
  ⟨name, [], kind, none, none⟩

def optional (name : String) (kind : Kind) (value : kind.Value) : Field :=
  ⟨name, [], kind, some value, some value⟩

/-- The field with one more name. -/
def called (f : Field) (name : String) : Field :=
  { f with others := name :: f.others }

def isNamed (f : Field) (key : String) : Bool :=
  key == f.name || f.others.contains key

end Field

/-- A value for each field. -/
abbrev Values : List Field → Type
  | [] => Unit
  | f :: fs => f.kind.Value × Values fs

/-- What has been read so far of each field. -/
abbrev Slots : List Field → Type
  | [] => Unit
  | f :: fs => Option f.kind.Value × Slots fs

namespace Slots

def empty : (fs : List Field) → Slots fs
  | [] => ()
  | _ :: fs => (none, empty fs)

/-- Reads a member into the slot of the field that it names; other members count for nothing. -/
def put : (fs : List Field) → Slots fs → String × Json → Except DecodeError (Slots fs)
  | [], s, _ => .ok s
  | f :: fs, (slot, rest), (key, v) =>
    if f.isNamed key then
      match slot with
      | some _ => .error (.duplicateField f.name)
      | none => (f.kind.read v).map fun x => (some x, rest)
    else (put fs rest (key, v)).map fun rest => (slot, rest)

/-- The values, once all members have been read. -/
def values : (fs : List Field) → Slots fs → Except DecodeError (Values fs)
  | [], _ => .ok ()
  | f :: fs, (slot, rest) =>
    match slot.or f.inObject with
    | none => .error (.missingField f.name)
    | some x => (values fs rest).map fun xs => (x, xs)

end Slots

/-- A record type: its title in messages and its fields in declared order. -/
structure Record where
  title : String
  fields : List Field

namespace Record

/-- Reads the fields from members in their order. -/
def ofMembers (r : Record) (members : List (String × Json)) :
    Except DecodeError (Values r.fields) :=
  (members.foldlM (Slots.put r.fields) (Slots.empty r.fields)).bind (Slots.values r.fields)

/-- Reads the fields from items; `i` of them stand before these. -/
def readItems (r : Record) :
    (fs : List Field) → Nat → List Json → Except DecodeError (Values fs × List Json)
  | [], _, items => .ok ((), items)
  | f :: fs, i, [] =>
    match f.inArray with
    | none => .error (.tooFewItems i r.title r.fields.length)
    | some x => (readItems r fs (i + 1) []).map fun (xs, rest) => ((x, xs), rest)
  | f :: fs, i, v :: items => do
    let x ← f.kind.read v
    let (xs, rest) ← readItems r fs (i + 1) items
    return ((x, xs), rest)

def ofItems (r : Record) (items : List Json) : Except DecodeError (Values r.fields) := do
  let (xs, rest) ← r.readItems r.fields 0 items
  if rest.isEmpty then .ok xs else .error (.tooManyItems items.length)

def read (r : Record) : Json → Except DecodeError (Values r.fields)
  | .obj members => r.ofMembers members
  | .arr items => r.ofItems items
  | v => .error (.wrongType v ("struct " ++ r.title))

end Record

end Takings.Json
