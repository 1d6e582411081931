import Mathlib

/-! Reading byte strings front to back.
A reader takes a value off the front of its input. That it reads a value off certain bytes,
whatever follows them, is what carries over when readers are put one after the other.
-/

namespace PerpDex.Wire

/-- A reader keeps the bytes it has not taken. -/
abbrev Reader (α : Type) := StateT (List UInt8) Option α

/-- Exactly `size` bytes. -/
def take (size : Nat) : Reader (List UInt8) := fun bytes =>
  if size ≤ bytes.length then some (bytes.take size, bytes.drop size) else none

/-- Exactly `size` bytes, as an array of that size. -/
def takeArray (size : Nat) : Reader (List.Vector UInt8 size) := fun bytes =>
  if enough : size ≤ bytes.length then
    some (⟨bytes.take size, List.length_take_of_le enough⟩, bytes.drop size)
  else none

def byte : Reader UInt8 := fun bytes => bytes.head?.map (fun first => (first, bytes.tail))

/-- The value of bytes, least significant first. -/
def leValue : List UInt8 → Nat
  | [] => 0
  | first :: rest => first.toNat + 256 * leValue rest

/-- The value of bytes, most significant first. -/
def beValue (bytes : List UInt8) : Nat := leValue bytes.reverse

/-- A value as bytes, most significant first; what does not fit the width is lost. -/
def beBytes : (width : Nat) → Nat → List UInt8
  | 0, _ => []
  | width + 1, value => beBytes width (value / 256) ++ [UInt8.ofNat (value % 256)]

def uintLe (width : Nat) : Reader Nat := leValue <$> take width

def uintBe (width : Nat) : Reader Nat := beValue <$> take width

/-- Goes on only if a condition holds. -/
def require (condition : Prop) [Decidable condition] : Reader Unit := fun bytes =>
  if condition then some ((), bytes) else none

/-- The same reader a number of times. -/
def many {α : Type} (reader : Reader α) : Nat → Reader (List α)
  | 0 => pure []
  | count + 1 => do
      let first ← reader
      let others ← many reader count
      pure (first :: others)

/-- A reading that leaves nothing. -/
def whole {α : Type} (reader : Reader α) (bytes : List UInt8) : Option α :=
  (reader bytes).bind (fun read => if read.2 = [] then some read.1 else none)

section Reads

variable {α β : Type}

/-- The reader takes exactly these bytes for this value. -/
def Reads (reader : Reader α) (bytes : List UInt8) (value : α) : Prop :=
  ∀ rest, reader (bytes ++ rest) = some (value, rest)

/-- The reader refuses every input that starts with these bytes. -/
def Refuses (reader : Reader α) (bytes : List UInt8) : Prop :=
  ∀ rest, reader (bytes ++ rest) = none

theorem Reads.pure (value : α) : Reads (Pure.pure value) [] value :=
  fun _ => rfl

/-- What follows a value that is read is left to the next reader. -/
theorem Reads.bind_append {first : Reader α} {front : List UInt8} {value : α}
    (reads : Reads first front value) (next : α → Reader β) (rest : List UInt8)
    : (first >>= next) (front ++ rest) = next value rest := by
  show (first (front ++ rest)).bind _ = _
  rw [reads rest]
  rfl

/-- Readers one after the other read bytes one after the other. -/
theorem Reads.bind {first : Reader α} {next : α → Reader β} {front back : List UInt8}
    {value : α} {result : β} (reads : Reads first front value)
    (continues : Reads (next value) back result)
    : Reads (first >>= next) (front ++ back) result := by
  intro rest
  rw [List.append_assoc, reads.bind_append next (back ++ rest)]
  exact continues rest

/-- A refusal after what has been read. -/
theorem Reads.refuses {first : Reader α} {next : α → Reader β} {front back : List UInt8}
    {value : α} (reads : Reads first front value) (refuses : Refuses (next value) back)
    : Refuses (first >>= next) (front ++ back) := by
  intro rest
  rw [List.append_assoc, reads.bind_append next (back ++ rest)]
  exact refuses rest

/-- A refusal at once. -/
theorem Refuses.bind {first : Reader α} {front : List UInt8} (refuses : Refuses first front)
    (next : α → Reader β) (back : List UInt8)
    : Refuses (first >>= next) (front ++ back) := by
  intro rest
  show (first (front ++ back ++ rest)).bind _ = _
  rw [List.append_assoc, refuses (back ++ rest)]
  rfl

theorem Reads.map {reader : Reader α} {bytes : List UInt8} {value : α}
    (reads : Reads reader bytes value) (convert : α → β)
    : Reads (convert <$> reader) bytes (convert value) := by
  intro rest
  show (reader (bytes ++ rest)).bind _ = _
  rw [reads rest]
  rfl

theorem reads_take {bytes : List UInt8} {size : Nat} (sized : bytes.length = size)
    : Reads (take size) bytes bytes := by
  subst sized
  intro rest
  rw [take, if_pos (by simp)]
  simp

theorem reads_takeArray {size : Nat} (array : List.Vector UInt8 size)
    : Reads (takeArray size) array.toList array := by
  intro rest
  have sized := array.toList_length
  have enough : size ≤ (array.toList ++ rest).length := by simp
  rw [takeArray, dif_pos enough]
  refine congrArg some (Prod.ext (Subtype.ext ?_) ?_)
  · exact List.take_left' sized
  · exact List.drop_left' sized

theorem reads_byte (first : UInt8) : Reads byte [first] first :=
  fun _ => rfl

theorem reads_uintLe {bytes : List UInt8} {width : Nat} (sized : bytes.length = width)
    : Reads (uintLe width) bytes (leValue bytes) :=
  (reads_take sized).map leValue

theorem reads_uintBe {bytes : List UInt8} {width : Nat} (sized : bytes.length = width)
    : Reads (uintBe width) bytes (beValue bytes) :=
  (reads_take sized).map beValue

theorem length_beBytes (width value : Nat) : (beBytes width value).length = width := by
  induction width generalizing value with
  | zero => rfl
  | succ width ih => rw [beBytes, List.length_append, ih, List.length_singleton]

theorem beValue_append (bytes : List UInt8) (last : UInt8)
    : beValue (bytes ++ [last]) = last.toNat + 256 * beValue bytes := by
  rw [beValue, List.reverse_append]
  rfl

/-- Bytes written most significant first are read back, up to their width. -/
theorem beValue_beBytes (width value : Nat)
    : beValue (beBytes width value) = value % 256 ^ width := by
  induction width generalizing value with
  | zero => simp [beBytes, beValue, leValue, Nat.mod_one]
  | succ width ih =>
      have low : (UInt8.ofNat (value % 256)).toNat = value % 256 := by simp
      rw [beBytes, beValue_append, ih, low, Nat.pow_succ, Nat.mul_comm (256 ^ width) 256,
        Nat.mod_mul]

/-- A value that fits its width is read back. -/
theorem reads_beBytes {width value : Nat} (fits : value < 256 ^ width)
    : Reads (uintBe width) (beBytes width value) value := by
  have read := reads_uintBe (length_beBytes width value)
  rw [beValue_beBytes, Nat.mod_eq_of_lt fits] at read
  exact read

theorem reads_require {condition : Prop} [Decidable condition] (holds : condition)
    : Reads (require condition) [] () :=
  fun _ => if_pos holds

theorem refuses_require {condition : Prop} [Decidable condition] (fails : ¬ condition)
    : Refuses (require condition) [] :=
  fun _ => if_neg fails

/-- A sequence of readers succeeds exactly if both do. -/
theorem bind_eq_some_iff {first : Reader α} {next : α → Reader β} {bytes rest : List UInt8}
    {result : β}
    : (first >>= next) bytes = some (result, rest)
      ↔ ∃ value middle, first bytes = some (value, middle)
        ∧ next value middle = some (result, rest) := by
  show (first bytes).bind _ = _ ↔ _
  rw [Option.bind_eq_some_iff]
  constructor
  · intro succeeded
    rcases succeeded with ⟨read, ok, continued⟩
    exact ⟨read.1, read.2, ok, continued⟩
  · intro succeeded
    rcases succeeded with ⟨value, middle, ok, continued⟩
    exact ⟨(value, middle), ok, continued⟩

theorem byte_eq_some_iff {bytes rest : List UInt8} {first : UInt8}
    : byte bytes = some (first, rest) ↔ bytes = first :: rest := by
  cases bytes <;> simp [byte]

theorem take_eq_some_iff {size : Nat} {bytes content rest : List UInt8}
    : take size bytes = some (content, rest)
      ↔ content.length = size ∧ bytes = content ++ rest := by
  constructor
  · intro taken
    unfold take at taken
    split at taken
    case isTrue enough =>
      cases taken
      exact ⟨List.length_take_of_le enough, (List.take_append_drop size bytes).symm⟩
    case isFalse => cases taken
  · intro written
    obtain ⟨sized, rfl⟩ := written
    exact reads_take sized rest

theorem require_eq_some_iff {condition : Prop} [Decidable condition]
    {bytes rest : List UInt8} {nothing : Unit}
    : require condition bytes = some (nothing, rest) ↔ condition ∧ bytes = rest := by
  unfold require
  split <;> simp [*]

/-- Reading a number of items gives that many. -/
theorem length_of_many {reader : Reader α} {count : Nat} {bytes rest : List UInt8}
    {items : List α} (read : Wire.many reader count bytes = some (items, rest))
    : items.length = count := by
  induction count generalizing bytes rest items with
  | zero =>
      cases read
      rfl
  | succ count ih =>
      obtain ⟨first, middle, _, others⟩ := bind_eq_some_iff.mp read
      obtain ⟨tail, final, manyRead, last⟩ := bind_eq_some_iff.mp others
      cases last
      rw [List.length_cons, ih manyRead]

/-- Items that are each read off their bytes are read off the bytes of all of them. -/
theorem Reads.many {reader : Reader α} {write : α → List UInt8} {items : List α}
    (each : ∀ item ∈ items, Reads reader (write item) item)
    : Reads (Wire.many reader items.length) (items.flatMap write) items := by
  induction items with
  | nil => exact Reads.pure []
  | cons item others ih =>
      have first := each item List.mem_cons_self
      have rest := ih (fun other member => each other (List.mem_cons_of_mem item member))
      have listed : Reads
          (Wire.many reader others.length >>= fun others => Pure.pure (item :: others))
          (others.flatMap write ++ []) (item :: others) :=
        rest.bind (Reads.pure (item :: others))
      rw [List.append_nil] at listed
      exact first.bind listed

/-- One refused item among items that are read refuses them all. -/
theorem Refuses.many {reader : Reader α} {write : α → List UInt8} {items : List α}
    (each : ∀ item ∈ items, Reads reader (write item) item ∨ Refuses reader (write item))
    {bad : α} (member : bad ∈ items) (refuses : Refuses reader (write bad))
    : Refuses (Wire.many reader items.length) (items.flatMap write) := by
  induction items with
  | nil => cases member
  | cons item others ih =>
      rcases each item List.mem_cons_self with reads | refused
      · rcases List.mem_cons.mp member with same | later
        · exact (same ▸ refuses).bind _ _
        · have rest := ih (fun other inside => each other (List.mem_cons_of_mem item inside)) later
          refine reads.refuses ?_
          have continued := rest.bind (fun others => Pure.pure (item :: others)) []
          rw [List.append_nil] at continued
          exact continued
      · exact refused.bind _ _

/-- A reading of the whole input is one that leaves nothing. -/
theorem whole_eq_some_iff {reader : Reader α} {bytes : List UInt8} {value : α}
    : Wire.whole reader bytes = some value ↔ reader bytes = some (value, []) := by
  rw [Wire.whole, Option.bind_eq_some_iff]
  constructor
  · intro succeeded
    rcases succeeded with ⟨read, ok, last⟩
    split at last
    case isTrue nothing =>
      cases last
      rw [ok, ← nothing]
    case isFalse => cases last
  · intro ok
    exact ⟨(value, []), ok, rfl⟩

/-- Bytes that are read are read as a whole. -/
theorem Reads.whole {reader : Reader α} {bytes : List UInt8} {value : α}
    (reads : Reads reader bytes value)
    : Wire.whole reader bytes = some value := by
  have last := reads []
  rw [List.append_nil] at last
  exact whole_eq_some_iff.mpr last

theorem Refuses.whole {reader : Reader α} {bytes : List UInt8} (refuses : Refuses reader bytes)
    : Wire.whole reader bytes = none := by
  have refused := refuses []
  rw [List.append_nil] at refused
  rw [Wire.whole, refused]
  rfl

end Reads

-----------------------------------------------------------------------------------------
-- Numbers in bytes
-----------------------------------------------------------------------------------------

theorem leValue_lt (bytes : List UInt8) : leValue bytes < 256 ^ bytes.length := by
  induction bytes with
  | nil => simp [leValue]
  | cons first rest ih =>
      have bound := first.toNat_lt
      rw [leValue, List.length_cons, Nat.pow_succ]
      omega

/-- Bytes of one length are told apart by their value. -/
theorem leValue_injective {left right : List UInt8} (sized : left.length = right.length)
    (same : leValue left = leValue right)
    : left = right := by
  induction left generalizing right with
  | nil => exact (List.eq_nil_of_length_eq_zero sized.symm).symm
  | cons first rest ih =>
      cases right with
      | nil => cases sized
      | cons other others =>
          have bound := first.toNat_lt
          have otherBound := other.toNat_lt
          rw [leValue, leValue] at same
          have front : first = other := UInt8.toNat_inj.mp (by omega)
          have behind : rest = others := ih (Nat.succ.inj sized) (by omega)
          rw [front, behind]

theorem leValue_append (low high : List UInt8)
    : leValue (low ++ high) = leValue low + 256 ^ low.length * leValue high := by
  induction low with
  | nil => simp [leValue]
  | cons first rest ih =>
      rw [List.cons_append, leValue, ih, leValue, List.length_cons, Nat.pow_succ]
      ring

theorem beValue_lt (bytes : List UInt8) : beValue bytes < 256 ^ bytes.length := by
  have bound := leValue_lt bytes.reverse
  rwa [List.length_reverse] at bound

theorem beValue_injective {left right : List UInt8} (sized : left.length = right.length)
    (same : beValue left = beValue right)
    : left = right := by
  refine List.reverse_injective (leValue_injective ?_ same)
  rw [List.length_reverse, List.length_reverse, sized]

theorem beValue_cons (first : UInt8) (rest : List UInt8)
    : beValue (first :: rest) = 256 ^ rest.length * first.toNat + beValue rest := by
  rw [beValue, List.reverse_cons, leValue_append, List.length_reverse, Nat.add_comm]
  simp [leValue, beValue]

end PerpDex.Wire
