import PerpDex.Lib.Json

/-! Reading a record out of JSON syntax.
A record is written as an object, whose fields are found by name and may not be repeated,
or as an array, whose elements are the fields in order. In an array an optional field has
to be there unless it has a default.
-/

namespace PerpDex

/-- Where the fields of a record are read from. -/
inductive RecordSource where
  | named (members : List (String × JsonTree))
  | positional (elements : List JsonTree)

/-- An array may not be longer than the record. -/
def JsonTree.recordSource (fieldCount : Nat) : JsonTree → Option RecordSource
  | .object members => some (.named members)
  | .array elements => if fieldCount < elements.length then none else some (.positional elements)
  | _ => none

namespace RecordSource

/-- What is written for a field: `none` if it is repeated, `some none` if it is absent. -/
def field (source : RecordSource) (position : Nat) (name : String) : Option (Option JsonTree) :=
  match source with
  | .named members =>
      match JsonTree.occurrences name members with
      | [] => some none
      | [tree] => some (some tree)
      | _ => none
  | .positional elements => some elements[position]?

/-- A field that has to be there. -/
def required {α : Type} (read : JsonTree → Option α) (source : RecordSource) (position : Nat)
    (name : String) : Option α := do
  let written ← source.field position name
  written.bind read

/-- A field with a default. -/
def defaulted {α : Type} (default : α) (read : JsonTree → Option α) (source : RecordSource)
    (position : Nat) (name : String) : Option α := do
  match ← source.field position name with
  | some tree => read tree
  | none => some default

/-- An optional field without a default, which only an object may leave out. -/
def optional {α : Type} (read : JsonTree → Option (Option α)) (source : RecordSource)
    (position : Nat) (name : String) : Option (Option α) :=
  match source with
  | .named _ => source.defaulted none read position name
  | .positional _ => source.required read position name

end RecordSource

namespace JsonTree

def readString : JsonTree → Option String
  | .string value => some value
  | _ => none

def readBool : JsonTree → Option Bool
  | .bool value => some value
  | _ => none

def readU32 : JsonTree → Option UInt32
  | .number (.posInt value) =>
      if value.toNat < 2 ^ 32 then some (UInt32.ofNat value.toNat) else none
  | _ => none

/-- Nothing is written as `null`. -/
def readOption {α : Type} (read : JsonTree → Option α) : JsonTree → Option (Option α)
  | .null => some none
  | tree => (read tree).map some

theorem readString_toValue {tree : JsonTree} {text : String} (read : tree.readString = some text)
    : tree.toValue = some (.string text) := by
  cases tree with
  | string value => simpa [readString, toValue] using read
  | _ => simp [readString] at read

end JsonTree

/-- A text field of an object is the member its value has under that name. -/
theorem RecordSource.required_string_named {members : List (String × JsonTree)} {json : Json}
    {position : Nat} {name text : String}
    (denotes : (JsonTree.object members).toValue = some json)
    (read : (RecordSource.named members).required JsonTree.readString position name = some text)
    : (json.get name).bind Json.asStr = some text := by
  simp only [JsonTree.toValue, Option.map_eq_some_iff] at denotes
  obtain ⟨values, valued, rfl⟩ := denotes
  have last := JsonTree.lookup_toMembers valued name
  simp only [required, field, Option.bind_eq_bind, Option.bind_eq_some_iff] at read
  obtain ⟨written, found, readsText⟩ := read
  split at found
  · cases Option.some.inj found
    simp at readsText
  · rename_i tree single
    cases Option.some.inj found
    obtain ⟨_, same, readsText⟩ := readsText
    cases Option.some.inj same
    rw [single] at last
    have held : values.lookup name = some (.string text) :=
      last.trans (JsonTree.readString_toValue readsText)
    simp [Json.get, held, Json.asStr]
  · cases found

end PerpDex
