import Mathlib

/-! JSON values and JSON syntax.
A value holds each key of an object once; a syntax tree keeps the members of an object as
they were written, repeated keys included. Reading a tree as a value keeps the last
occurrence of a key.
-/

namespace PerpDex

/-- A number as a JSON reader keeps it; a float is kept as its bit pattern. -/
inductive JsonNumber where
  | posInt (value : UInt64)
  | negInt (value : Int64)
  | float (bits : UInt64)
deriving DecidableEq

inductive Json where
  | null
  | bool (value : Bool)
  | number (value : JsonNumber)
  | string (value : String)
  | array (elements : List Json)
  | object (members : List (String × Json))

namespace Json

/-- The member with a key; only objects have members. -/
def get (key : String) : Json → Option Json
  | .object members => members.lookup key
  | _ => none

/-- Indexing by key, where a missing member reads as `null`. -/
def index (json : Json) (key : String) : Json := (json.get key).getD .null

/-- Indexing by key for writing; any value but an object or `null` panics. -/
def indexMut (key : String) : Json → Option Json
  | .null => some .null
  | .object members => some ((members.lookup key).getD .null)
  | _ => none

def asStr : Json → Option String
  | .string value => some value
  | _ => none

def asU64 : Json → Option UInt64
  | .number (.posInt value) => some value
  | _ => none

/-- A whole number of 64 bits with sign. -/
def asI64 : Json → Option Int
  | .number (.posInt value) => if value.toNat < 2 ^ 63 then some value.toNat else none
  | .number (.negInt value) => some value.toInt
  | _ => none

def asBool : Json → Option Bool
  | .bool value => some value
  | _ => none

def isObject : Json → Bool
  | .object _ => true
  | _ => false

def asObject : Json → Option (List (String × Json))
  | .object members => some members
  | _ => none

def asArray : Json → Option (List Json)
  | .array elements => some elements
  | _ => none

end Json

/-- JSON syntax. `unreadable` stands for a token that is skipped when it is ignored but
cannot be read as a value, such as a number beyond every range.
-/
inductive JsonTree where
  | null
  | bool (value : Bool)
  | number (value : JsonNumber)
  | string (value : String)
  | unreadable
  | array (elements : List JsonTree)
  | object (members : List (String × JsonTree))

namespace JsonTree

/-- Set a key, dropping the member it had before. -/
def setMember (members : List (String × Json)) (key : String) (value : Json)
    : List (String × Json) :=
  members.filter (fun member => member.1 ≠ key) ++ [(key, value)]

mutual

/-- The value a tree denotes; the last of several equal keys wins. -/
def toValue : JsonTree → Option Json
  | .null => some .null
  | .bool value => some (.bool value)
  | .number value => some (.number value)
  | .string value => some (.string value)
  | .unreadable => none
  | .array elements => (toValues elements).map .array
  | .object members => (toMembers [] members).map .object

def toValues : List JsonTree → Option (List Json)
  | [] => some []
  | element :: rest => do
      let value ← toValue element
      let values ← toValues rest
      some (value :: values)

def toMembers (read : List (String × Json))
    : List (String × JsonTree) → Option (List (String × Json))
  | [] => some read
  | (key, tree) :: rest => do
      let value ← toValue tree
      toMembers (setMember read key value) rest

end

/-- All trees written under a key, in order. -/
def occurrences (key : String) (members : List (String × JsonTree)) : List JsonTree :=
  (members.filter (fun member => member.1 = key)).map Prod.snd

theorem lookup_setMember (members : List (String × Json)) (key other : String) (value : Json)
    : (setMember members key value).lookup other
      = if other = key then some value else members.lookup other := by
  have kept : (members.filter (fun member => member.1 ≠ key)).lookup other
      = if other = key then none else members.lookup other := by
    induction members with
    | nil => simp
    | cons member rest ih =>
        obtain ⟨name, held⟩ := member
        by_cases dropped : name = key
        · by_cases same : other = key
          · simpa [dropped, same] using ih
          · simpa [dropped, same, List.lookup, beq_eq_false_iff_ne.mpr same] using ih
        · by_cases found : other = name
          · simp [found, dropped, List.lookup]
          · simpa [dropped, List.lookup, beq_eq_false_iff_ne.mpr found] using ih
  rw [setMember, List.lookup_append, kept]
  by_cases same : other = key
  · simp [same]
  · simp [same, List.lookup, beq_eq_false_iff_ne.mpr same]

/-- A key is read as the last value written under it. -/
theorem lookup_toMembers {members : List (String × JsonTree)} {read values : List (String × Json)}
    (denotes : toMembers read members = some values) (key : String)
    : values.lookup key
      = match (occurrences key members).getLast? with
        | some tree => tree.toValue
        | none => read.lookup key := by
  induction members generalizing read with
  | nil =>
      simp only [toMembers, Option.some.injEq] at denotes
      simp [occurrences, denotes]
  | cons member rest ih =>
      obtain ⟨name, tree⟩ := member
      simp only [toMembers, Option.bind_eq_bind, Option.bind_eq_some_iff] at denotes
      obtain ⟨value, headValue, tail⟩ := denotes
      rw [ih tail, lookup_setMember]
      by_cases same : name = key
      · subst same
        simp only [occurrences, List.filter_cons, decide_true, if_true, List.map_cons,
          List.getLast?_cons]
        cases ((rest.filter (fun member => decide (member.1 = name))).map Prod.snd).getLast? with
        | none => simp [headValue]
        | some last => simp
      · simp [occurrences, same, Ne.symm same]

end JsonTree

end PerpDex
