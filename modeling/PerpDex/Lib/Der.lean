import PerpDex.Lib.Wire

/-! Distinguished encodings of pairs of non-negative integers.
An element is a tag, the length of its content in one byte and the content; an integer takes as
few bytes as its value and its sign bit need. Reading accepts nothing else, so a pair of numbers
has one encoding.
-/

namespace PerpDex.Der

open Wire

/-- An element with a content of fewer than 128 bytes. -/
def element (tag : UInt8) (content : List UInt8) : List UInt8 :=
  tag :: UInt8.ofNat content.length :: content

def integerTag : UInt8 := 0x02

def sequenceTag : UInt8 := 0x30

/-- The sign bit is clear, and the byte in front is there for its value or for the sign bit of
the next one.
-/
def minimal : List UInt8 → Bool
  | [] => false
  | [byte] => byte < 128
  | first :: second :: _ => first < 128 && (first ≠ 0 || 128 ≤ second)

def readElement (tag : UInt8) : Reader (List UInt8) := do
  let first ← byte
  require (first = tag)
  let size ← byte
  require (size < 128)
  take size.toNat

def readInteger : Reader Nat := do
  let content ← readElement integerTag
  require (minimal content)
  pure (beValue content)

def readIntegers : Reader (Nat × Nat) := do
  let first ← readInteger
  let second ← readInteger
  pure (first, second)

/-- A sequence of two non-negative integers and nothing more. -/
def decode (bytes : List UInt8) : Option (Nat × Nat) := do
  let content ← whole (readElement sequenceTag) bytes
  whole readIntegers content

-----------------------------------------------------------------------------------------
-- One content a number
-----------------------------------------------------------------------------------------

/-- With its sign bit clear a content stays below half of its range. -/
theorem beValue_lt_of_minimal {content : List UInt8} (short : minimal content)
    : 2 * beValue content < 256 ^ content.length := by
  rcases content with _ | ⟨first, rest⟩
  · cases short
  · have clear : first.toNat < 128 := by
      cases rest with
      | nil => simpa [minimal, UInt8.lt_iff_toNat_lt] using short
      | cons second others =>
          have both : first < 128 ∧ (first = 0 → 128 ≤ second) := by
            simpa [minimal, or_iff_not_imp_left] using short
          exact UInt8.lt_iff_toNat_lt.mp both.1
    have below := beValue_lt rest
    rw [beValue_cons, List.length_cons, Nat.pow_succ]
    nlinarith

/-- A content of more than one byte needs all of them. -/
theorem le_beValue_of_minimal {first second : UInt8} {rest : List UInt8}
    (short : minimal (first :: second :: rest))
    : 256 ^ (rest.length + 1) ≤ 2 * beValue (first :: second :: rest) := by
  have both : first < 128 ∧ (first = 0 → 128 ≤ second) := by
    simpa [minimal, or_iff_not_imp_left] using short
  rw [beValue_cons, beValue_cons, List.length_cons, Nat.pow_succ]
  by_cases zero : first = 0
  · have high : 128 ≤ second.toNat := UInt8.le_iff_toNat_le.mp (both.2 zero)
    have range := Nat.mul_le_mul_left (256 ^ rest.length) high
    omega
  · have positive : 1 ≤ first.toNat := by
      have nonzero : first.toNat ≠ 0 := fun none => zero (UInt8.toNat_inj.mp none)
      omega
    have range := Nat.mul_le_mul_left (256 ^ rest.length * 256) positive
    omega

theorem length_le_of_minimal {left right : List UInt8} (shortLeft : minimal left)
    (shortRight : minimal right) (same : beValue left = beValue right)
    : left.length ≤ right.length := by
  rcases left with _ | ⟨first, _ | ⟨second, rest⟩⟩
  · exact Nat.zero_le _
  · cases right with
    | nil => cases shortRight
    | cons other others => simp
  · have above := le_beValue_of_minimal shortLeft
    have below := beValue_lt_of_minimal shortRight
    have range : 256 ^ (rest.length + 1) < 256 ^ right.length := by omega
    have longer := (Nat.pow_lt_pow_iff_right (by decide)).mp range
    rw [List.length_cons, List.length_cons]
    omega

/-- A number has one minimal content. -/
theorem minimal_unique {left right : List UInt8} (shortLeft : minimal left)
    (shortRight : minimal right) (same : beValue left = beValue right)
    : left = right :=
  beValue_injective
    (Nat.le_antisymm (length_le_of_minimal shortLeft shortRight same)
      (length_le_of_minimal shortRight shortLeft same.symm))
    same

-----------------------------------------------------------------------------------------
-- Reading
-----------------------------------------------------------------------------------------

/-- An element is read exactly from its own bytes. -/
theorem readElement_eq_some_iff {tag : UInt8} {bytes content rest : List UInt8}
    : readElement tag bytes = some (content, rest)
      ↔ content.length < 128 ∧ bytes = element tag content ++ rest := by
  constructor
  · intro read
    obtain ⟨first, afterTag, gotTag, read⟩ := bind_eq_some_iff.mp read
    obtain ⟨_, _, tagged, read⟩ := bind_eq_some_iff.mp read
    obtain ⟨size, afterSize, gotSize, read⟩ := bind_eq_some_iff.mp read
    obtain ⟨_, _, bounded, read⟩ := bind_eq_some_iff.mp read
    obtain ⟨rfl, rfl⟩ := require_eq_some_iff.mp tagged
    obtain ⟨small, rfl⟩ := require_eq_some_iff.mp bounded
    obtain ⟨sized, rfl⟩ := take_eq_some_iff.mp read
    rw [byte_eq_some_iff.mp gotTag, byte_eq_some_iff.mp gotSize]
    refine ⟨sized ▸ UInt8.lt_iff_toNat_lt.mp small, ?_⟩
    rw [element, sized, UInt8.ofNat_toNat]
    rfl
  · intro written
    obtain ⟨small, rfl⟩ := written
    have value : (UInt8.ofNat content.length).toNat = content.length := by
      simp
      omega
    have bounded : UInt8.ofNat content.length < 128 := by
      rw [UInt8.lt_iff_toNat_lt, value]
      exact small
    have reads : Reads (readElement tag) ([tag] ++ ([] ++ ([UInt8.ofNat content.length]
        ++ ([] ++ content)))) content :=
      (reads_byte tag).bind ((reads_require rfl).bind
        ((reads_byte _).bind ((reads_require bounded).bind (reads_take value.symm))))
    exact reads rest

theorem readInteger_eq_some_iff {bytes rest : List UInt8} {value : Nat}
    : readInteger bytes = some (value, rest)
      ↔ ∃ content, minimal content ∧ beValue content = value ∧ content.length < 128
        ∧ bytes = element integerTag content ++ rest := by
  constructor
  · intro read
    obtain ⟨content, middle, gotElement, read⟩ := bind_eq_some_iff.mp read
    obtain ⟨_, _, short, last⟩ := bind_eq_some_iff.mp read
    obtain ⟨isMinimal, rfl⟩ := require_eq_some_iff.mp short
    obtain ⟨small, written⟩ := readElement_eq_some_iff.mp gotElement
    cases last
    exact ⟨content, isMinimal, rfl, small, written⟩
  · intro written
    obtain ⟨content, isMinimal, rfl, small, written⟩ := written
    refine bind_eq_some_iff.mpr ⟨content, rest, readElement_eq_some_iff.mpr ⟨small, written⟩, ?_⟩
    exact bind_eq_some_iff.mpr ⟨(), rest, require_eq_some_iff.mpr ⟨isMinimal, rfl⟩, rfl⟩

/-- The pairs that are read are those of two minimal contents in a sequence. -/
theorem decode_eq_some_iff {bytes : List UInt8} {first second : Nat}
    : decode bytes = some (first, second)
      ↔ ∃ left right, minimal left ∧ minimal right ∧ beValue left = first
        ∧ beValue right = second
        ∧ (element integerTag left ++ element integerTag right).length < 128
        ∧ bytes
          = element sequenceTag (element integerTag left ++ element integerTag right) := by
  constructor
  · intro decoded
    obtain ⟨content, gotSequence, gotIntegers⟩ := Option.bind_eq_some_iff.mp decoded
    obtain ⟨small, written⟩ := readElement_eq_some_iff.mp (whole_eq_some_iff.mp gotSequence)
    have read := whole_eq_some_iff.mp gotIntegers
    obtain ⟨_, middle, gotFirst, read⟩ := bind_eq_some_iff.mp read
    obtain ⟨_, final, gotSecond, last⟩ := bind_eq_some_iff.mp read
    obtain ⟨left, shortLeft, valueLeft, _, rfl⟩ := readInteger_eq_some_iff.mp gotFirst
    obtain ⟨right, shortRight, valueRight, _, rfl⟩ := readInteger_eq_some_iff.mp gotSecond
    cases last
    simp only [List.append_nil] at small written
    exact ⟨left, right, shortLeft, shortRight, valueLeft, valueRight, small, written⟩
  · intro written
    obtain ⟨left, right, shortLeft, shortRight, valueLeft, valueRight, small, rfl⟩ := written
    have sizes : left.length < 128 ∧ right.length < 128 := by
      simp only [element, List.length_append, List.length_cons] at small
      omega
    have gotFirst := readInteger_eq_some_iff.mpr
      ⟨left, shortLeft, valueLeft, sizes.1,
        (rfl : element integerTag left ++ element integerTag right = _)⟩
    have gotSecond := readInteger_eq_some_iff.mpr
      ⟨right, shortRight, valueRight, sizes.2, (List.append_nil _).symm⟩
    refine Option.bind_eq_some_iff.mpr ⟨element integerTag left ++ element integerTag right, ?_, ?_⟩
    · exact whole_eq_some_iff.mpr
        (readElement_eq_some_iff.mpr ⟨small, (List.append_nil _).symm⟩)
    · exact whole_eq_some_iff.mpr
        (bind_eq_some_iff.mpr ⟨first, _, gotFirst,
          bind_eq_some_iff.mpr ⟨second, [], gotSecond, rfl⟩⟩)

/-- A pair of numbers has one encoding. -/
theorem decode_injective {bytes others : List UInt8} {values : Nat × Nat}
    (decoded : decode bytes = some values) (otherDecoded : decode others = some values)
    : bytes = others := by
  obtain ⟨first, second⟩ := values
  obtain ⟨left, right, shortLeft, shortRight, valueLeft, valueRight, _, rfl⟩ :=
    decode_eq_some_iff.mp decoded
  obtain ⟨otherLeft, otherRight, otherShortLeft, otherShortRight, otherValueLeft,
    otherValueRight, _, rfl⟩ := decode_eq_some_iff.mp otherDecoded
  have sameLeft := minimal_unique shortLeft otherShortLeft (valueLeft.trans otherValueLeft.symm)
  have sameRight :=
    minimal_unique shortRight otherShortRight (valueRight.trans otherValueRight.symm)
  rw [sameLeft, sameRight]

end PerpDex.Der
