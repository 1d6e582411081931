import PerpDex.Lib.Wire
import PerpDex.Spv.TxShaMap

/-! Inclusion paths of the transaction tree.
The tree that is built is the one of the entries, whatever the order of the transactions, and
each leaf stands as high as it is alone. Every transaction has a path that checks. A path that
checks against the root is the one of a listed transaction, provided that among the texts that
are hashed no two have the same digest and none has the one that stands for an absent child.
-/

namespace PerpDex.TxShamap

open Wire

-----------------------------------------------------------------------------------------
-- Leaves
-----------------------------------------------------------------------------------------

/-- A transaction and its metadata. -/
abbrev Item := List UInt8 × List UInt8

/-- Both parts have a length that can be written. -/
def Writable (item : Item) : Prop := item.1.length ≤ 918744 ∧ item.2.length ≤ 918744

/-- A length as it is written, if it can be. -/
def vlBytes (n : Nat) : List UInt8 :=
  if n ≤ 192 then [UInt8.ofNat n]
  else if n ≤ 12480 then
    [UInt8.ofNat (193 + (n - 193) / 2 ^ 8), UInt8.ofNat ((n - 193) % 2 ^ 8)]
  else
    [UInt8.ofNat (241 + (n - 12481) / 2 ^ 16), UInt8.ofNat ((n - 12481) / 2 ^ 8 % 2 ^ 8),
      UInt8.ofNat ((n - 12481) % 2 ^ 8)]

theorem vlByte_ok {value : Nat} (small : value < 256) (what : String)
    : vlByte value what = .ok (UInt8.ofNat value) := by
  rw [vlByte, if_pos small]

theorem checkedSub_ok {left right : Nat} (enough : right ≤ left) (context : String)
    : checkedSub left right context = .ok (left - right) := by
  rw [checkedSub, if_pos enough]

theorem vlPrefix_ok {n : Nat} (small : n ≤ 918744) : vlPrefix n = .ok (vlBytes n) := by
  have next : ∀ {α β : Type} (value : α) (rest : α → Except String β),
      (Except.ok value >>= rest) = rest value := fun _ _ => rfl
  unfold vlPrefix vlBytes
  by_cases one : n ≤ 192
  · rw [if_pos one, if_pos one, vlByte_ok (by omega), next]
  rw [if_neg one, if_neg one]
  by_cases two : n ≤ 12480
  · rw [if_pos two, if_pos two, checkedSub_ok (by omega), next, vlByte_ok (by omega), next]
  · rw [if_neg two, if_neg two, if_pos small, checkedSub_ok (by omega), next,
      vlByte_ok (by omega), next]

theorem vlPrefix_error {n : Nat} (large : ¬ n ≤ 918744)
    : vlPrefix n = .error s!"VL length {n} exceeds the XRPL maximum of 918744" := by
  rw [vlPrefix, if_neg (by omega), if_neg (by omega), if_neg large]

/-- The first byte of a length tells how many follow. -/
def readVl : Reader Nat := do
  let first ← byte
  if first.toNat ≤ 192 then pure first.toNat
  else if first.toNat ≤ 240 then do
    let second ← byte
    pure (193 + (first.toNat - 193) * 2 ^ 8 + second.toNat)
  else do
    let second ← byte
    let third ← byte
    pure (12481 + (first.toNat - 241) * 2 ^ 16 + second.toNat * 2 ^ 8 + third.toNat)

theorem readVl_one {first : UInt8} (rest : List UInt8) (small : first.toNat ≤ 192)
    : readVl (first :: rest) = some (first.toNat, rest) := by
  show (if first.toNat ≤ 192 then _ else _ : Reader Nat) rest = _
  rw [if_pos small]
  rfl

theorem readVl_two {first : UInt8} (second : UInt8) (rest : List UInt8)
    (large : ¬ first.toNat ≤ 192) (small : first.toNat ≤ 240)
    : readVl (first :: second :: rest)
      = some (193 + (first.toNat - 193) * 2 ^ 8 + second.toNat, rest) := by
  show (if first.toNat ≤ 192 then _ else _ : Reader Nat) (second :: rest) = _
  rw [if_neg large, if_pos small]
  rfl

theorem readVl_three {first : UInt8} (second third : UInt8) (rest : List UInt8)
    (large : ¬ first.toNat ≤ 240)
    : readVl (first :: second :: third :: rest)
      = some (12481 + (first.toNat - 241) * 2 ^ 16 + second.toNat * 2 ^ 8 + third.toNat, rest) := by
  show (if first.toNat ≤ 192 then _ else _ : Reader Nat) (second :: third :: rest) = _
  rw [if_neg (by omega), if_neg large]
  rfl

theorem reads_vl {n : Nat} (small : n ≤ 918744) : Reads readVl (vlBytes n) n := by
  have toNat : ∀ {value : Nat}, value < 256 → (UInt8.ofNat value).toNat = value := by
    intro value fits
    rw [UInt8.toNat_ofNat']
    omega
  intro rest
  unfold vlBytes
  by_cases one : n ≤ 192
  · rw [if_pos one, List.singleton_append, readVl_one rest (by rw [toNat (by omega)]; exact one),
      toNat (by omega)]
  rw [if_neg one]
  by_cases two : n ≤ 12480
  · have high := @toNat (193 + (n - 193) / 2 ^ 8) (by omega)
    have low := @toNat ((n - 193) % 2 ^ 8) (by omega)
    rw [if_pos two, List.cons_append, List.singleton_append,
      readVl_two _ rest (by omega) (by omega), high, low]
    exact congrArg (fun value => some (value, rest)) (by omega)
  · have high := @toNat (241 + (n - 12481) / 2 ^ 16) (by omega)
    have middle := @toNat ((n - 12481) / 2 ^ 8 % 2 ^ 8) (by omega)
    have low := @toNat ((n - 12481) % 2 ^ 8) (by omega)
    rw [if_neg two, List.cons_append, List.cons_append, List.singleton_append,
      readVl_three _ _ rest (by omega), high, middle, low]
    exact congrArg (fun value => some (value, rest)) (by omega)

section Leaves

variable (sha512half : List UInt8 → Bytes 32)

/-- What the hash of a leaf is over. -/
def leafText (item : Item) : List UInt8 :=
  hpTxNode ++ (vlBytes item.1.length ++ (item.1 ++ (vlBytes item.2.length
    ++ (item.2 ++ (txId sha512half item.1).toList))))

/-- What the hash of an inner node is over. -/
def innerText (node : Bytes 512) : List UInt8 := hpInner ++ node.toList

variable {sha512half} in
theorem txLeafHash_eq_ok_iff {txBlob metadata : List UInt8} {hash : Bytes 32}
    : txLeafHash sha512half txBlob metadata = .ok hash
      ↔ Writable (txBlob, metadata)
        ∧ hash = sha512half (leafText sha512half (txBlob, metadata)) := by
  unfold txLeafHash Writable
  by_cases first : txBlob.length ≤ 918744
  · by_cases second : metadata.length ≤ 918744
    · rw [vlPrefix_ok first, vlPrefix_ok second]
      exact ⟨fun hashed => ⟨⟨first, second⟩, (Except.ok.inj hashed).symm⟩,
        fun given => congrArg Except.ok given.2.symm⟩
    · rw [vlPrefix_ok first, vlPrefix_error second]
      exact ⟨fun hashed => (by cases hashed), fun given => absurd given.1.2 second⟩
  · rw [vlPrefix_error first]
    exact ⟨fun hashed => (by cases hashed), fun given => absurd given.1.1 first⟩

/-- A leaf is hashed over a text that both parts can be read from. -/
theorem leafText_injective {left right : Item} (leftWritable : Writable left)
    (rightWritable : Writable right)
    (same : leafText sha512half left = leafText sha512half right)
    : left = right := by
  let reader : Reader Item := do
    let _ ← take 4
    let txLength ← readVl
    let txBlob ← take txLength
    let metadataLength ← readVl
    let metadata ← take metadataLength
    pure (txBlob, metadata)
  have reads : ∀ {item : Item}, Writable item
      → reader (leafText sha512half item) = some (item, (txId sha512half item.1).toList) := by
    intro item writable
    have inner : Reads (take item.2.length >>= fun metadata => pure (item.1, metadata))
        (item.2 ++ []) item := (reads_take rfl).bind (Reads.pure _)
    have whole : Reads reader (hpTxNode ++ (vlBytes item.1.length ++ (item.1
        ++ (vlBytes item.2.length ++ (item.2 ++ []))))) item := by
      refine Reads.bind (reads_take rfl) ?_
      refine Reads.bind (reads_vl writable.1) ?_
      refine Reads.bind (reads_take rfl) ?_
      exact Reads.bind (reads_vl writable.2) inner
    have read := whole (txId sha512half item.1).toList
    simp only [List.append_nil, List.append_assoc] at read
    exact read
  have leftRead := reads leftWritable
  rw [same, reads rightWritable] at leftRead
  exact (Prod.mk.inj (Option.some.inj leftRead)).1.symm

theorem innerText_injective {left right : Bytes 512} (same : innerText left = innerText right)
    : left = right :=
  List.Vector.eq _ _ (List.append_cancel_left same)

theorem leafText_ne_innerText (item : Item) (node : Bytes 512)
    : leafText sha512half item ≠ innerText node := by
  intro same
  have first : some (0x53 : UInt8) = some 0x4D := congrArg List.head? same
  exact absurd first (by decide)

end Leaves

-----------------------------------------------------------------------------------------
-- The tree that is built
-----------------------------------------------------------------------------------------

section Tree

variable (sha512half : List UInt8 → Bytes 32)

/-- Key and hash of the leaf of a transaction. -/
def entryOf (item : Item) : Bytes 32 × Bytes 32 :=
  (txId sha512half item.1, sha512half (leafText sha512half item))

def entriesOf (items : List Item) : List (Bytes 32 × Bytes 32) :=
  items.map (entryOf sha512half)

/-- The tree of some entries below a root that is an inner node. -/
def rootOf (entries : List (Bytes 32 × Bytes 32)) : Node :=
  if entries.isEmpty then .empty else .inner (Trie.childrenOf nibble 63 0 entries)

variable {sha512half}

theorem insertItem_eq_ok_iff {entries : List (Bytes 32 × Bytes 32)} {item : Item} {tree : Node}
    (spread : Trie.Spread nibble 0 63 entries)
    : insertItem sha512half (.inner (Trie.childrenOf nibble 63 0 entries)) item = .ok tree
      ↔ Writable item
        ∧ (∀ entry ∈ entries, Trie.Apart nibble 0 63 entry.1 (txId sha512half item.1))
        ∧ tree = .inner (Trie.childrenOf nibble 63 0 (entries ++ [entryOf sha512half item])) := by
  have strict : branching.duplicate ≠ none := by decide
  have inserts : ∀ hash, Node.insert (.inner (Trie.childrenOf nibble 63 0 entries))
      (txId sha512half item.1) hash 0 = .ok tree ↔ _ :=
    fun hash => @Trie.insert_childrenOf_iff _ _ _ _ _ branching _ 62 0 _ _ _ _ strict spread
  simp only [insertItem, Except.bind_eq_ok_iff, txLeafHash_eq_ok_iff]
  constructor
  · rintro ⟨hash, ⟨writable, rfl⟩, inserted⟩
    exact ⟨writable, (inserts _).mp inserted⟩
  · rintro ⟨writable, apart, isTree⟩
    exact ⟨_, ⟨writable, rfl⟩, (inserts _).mpr ⟨apart, isTree⟩⟩

/-- Inserting transactions one after the other gives the tree of their entries. -/
theorem foldlM_insertItem_eq_ok_iff (items : List Item)
    : ∀ {entries : List (Bytes 32 × Bytes 32)} {tree : Node},
      Trie.Spread nibble 0 63 entries
      → (items.foldlM (insertItem sha512half) (.inner (Trie.childrenOf nibble 63 0 entries))
          = .ok tree
        ↔ (∀ item ∈ items, Writable item)
          ∧ Trie.Spread nibble 0 63 (entries ++ entriesOf sha512half items)
          ∧ tree
            = .inner
                (Trie.childrenOf nibble 63 0 (entries ++ entriesOf sha512half items))) := by
  induction items with
  | nil =>
      intro entries tree spread
      simp only [List.foldlM_nil, entriesOf, List.map_nil, List.append_nil]
      exact ⟨fun built => ⟨by simp, spread, (Except.ok.inj built).symm⟩,
        fun given => congrArg Except.ok given.2.2.symm⟩
  | cons item items ih =>
      intro entries tree spread
      have joined : entries ++ entriesOf sha512half (item :: items)
          = (entries ++ [entryOf sha512half item]) ++ entriesOf sha512half items := by
        simp [entriesOf]
      rw [List.foldlM_cons, Except.bind_eq_ok_iff, joined]
      constructor
      · rintro ⟨next, inserted, folded⟩
        obtain ⟨writable, apart, rfl⟩ := (insertItem_eq_ok_iff spread).mp inserted
        have spread' : Trie.Spread nibble 0 63 (entries ++ [entryOf sha512half item]) := by
          refine List.pairwise_append.mpr ⟨spread, List.pairwise_singleton _ _, ?_⟩
          intro left inEntries right isItem
          rw [List.mem_singleton.mp isItem]
          exact apart left inEntries
        obtain ⟨allWritable, allSpread, isTree⟩ := (ih spread').mp folded
        exact ⟨List.forall_mem_cons.mpr ⟨writable, allWritable⟩, allSpread, isTree⟩
      · rintro ⟨allWritable, allSpread, isTree⟩
        obtain ⟨writable, othersWritable⟩ := List.forall_mem_cons.mp allWritable
        have spread' := (List.pairwise_append.mp allSpread).1
        have apart := (List.pairwise_append.mp spread').2.2
        refine ⟨_, (insertItem_eq_ok_iff spread).mpr ⟨writable, ?_, rfl⟩, ?_⟩
        · exact fun entry member =>
            apart entry member (entryOf sha512half item) (List.mem_singleton_self _)
        · exact (ih spread').mpr ⟨othersWritable, allSpread, isTree⟩

/-- When a tree is built, and which. -/
theorem build_eq_ok_iff {items : List Item} {map : TxShaMap}
    : TxShaMap.build sha512half items = .ok map
      ↔ (∀ item ∈ items, Writable item)
        ∧ Trie.Spread nibble 0 63 (entriesOf sha512half items)
        ∧ map.root = rootOf (entriesOf sha512half items) := by
  have wrap : TxShaMap.build sha512half items = .ok map
      ↔ items.foldlM (insertItem sha512half) (if items.isEmpty then .empty else emptyInner)
        = .ok map.root := by
    unfold TxShaMap.build
    rw [Except.bind_eq_ok_iff]
    exact ⟨fun ⟨_, folded, isMap⟩ => (Except.ok.inj isMap) ▸ folded,
      fun folded => ⟨_, folded, rfl⟩⟩
  rw [wrap]
  cases items with
  | nil =>
      simp only [List.foldlM_nil, entriesOf, List.map_nil, List.isEmpty_nil, if_true, rootOf]
      exact ⟨fun built => ⟨by simp, List.Pairwise.nil, (Except.ok.inj built).symm⟩,
        fun given => congrArg Except.ok given.2.2.symm⟩
  | cons item items =>
      have start : emptyInner = .inner (Trie.childrenOf nibble 63 0 []) :=
        congrArg Trie.inner (Trie.childrenOf_nil nibble 63 0).symm
      simp only [List.isEmpty_cons, Bool.false_eq_true, if_false, start]
      exact foldlM_insertItem_eq_ok_iff (item :: items) List.Pairwise.nil

/-- The leaves of the tree are the entries, each as high as it is alone. -/
theorem rootOf_at {entries : List (Bytes 32 × Bytes 32)} {way : List (Fin 16)}
    {key hash : Bytes 32} (spread : Trie.Spread nibble 0 63 entries)
    (found : (rootOf entries).At way (.leaf key hash))
    : (key, hash) ∈ entries
      ∧ IsLeast {count | 1 ≤ count ∧ Trie.Alone nibble 0 entries key count} way.length := by
  unfold rootOf at found
  split_ifs at found
  · cases found
  · cases found with
    | child deeper =>
        have member := Trie.mem_inBranch.mp deeper.mem
        obtain rfl := member.2
        have below := spread.inBranch (nibble key 0)
        exact ⟨member.1, Trie.isLeast_alone (Trie.At.isLeast below deeper)⟩

/-- A path in the tree has at most as many nodes as a key has half bytes. -/
theorem length_walk_rootOf (entries : List (Bytes 32 × Bytes 32)) (target : Bytes 32)
    : ((rootOf entries).walk nibble target 0).1.length ≤ maxDepth := by
  unfold rootOf
  split_ifs
  · exact Nat.zero_le _
  · exact Trie.length_walk_childrenOf 63 0 entries target

/-- The key of an entry leads to its leaf, through the root at least. -/
theorem walk_rootOf {entries : List (Bytes 32 × Bytes 32)} {key hash : Bytes 32}
    (spread : Trie.Spread nibble 0 63 entries) (member : (key, hash) ∈ entries)
    : ((rootOf entries).walk nibble key 0).2 = .leaf key hash
      ∧ 1 ≤ ((rootOf entries).walk nibble key 0).1.length := by
  have nonempty : entries.isEmpty = false := by
    cases entries with
    | nil => cases member
    | cons _ _ => rfl
  have isInner : rootOf entries = .inner (Trie.childrenOf nibble 63 0 entries) := by
    rw [rootOf, nonempty]
    rfl
  rw [isInner]
  exact ⟨@Trie.walk_childrenOf _ _ _ _ nibble 62 0 entries key hash spread member,
    Nat.succ_pos _⟩

end Tree

-----------------------------------------------------------------------------------------
-- Paths
-----------------------------------------------------------------------------------------

section Paths

variable {sha512half : List UInt8 → Bytes 32}

/-- The path of a key that leads to its own leaf. -/
theorem pathFrom_ok {target hash : Bytes 32} (node : Node)
    : ∀ {depth : Nat}, depth + (node.walk nibble target depth).1.length ≤ maxDepth
      → (node.walk nibble target depth).2 = .leaf target hash
      → pathFrom sha512half target depth node
        = .ok ((scheme sha512half).opening nibble target depth node) := by
  induction node with
  | empty =>
      intro depth shallow ends
      cases ends
  | leaf key value =>
      intro depth shallow ends
      cases ends
      rw [pathFrom, if_neg (not_not.mpr rfl)]
      rfl
  | inner children ih =>
      intro depth shallow ends
      have length : (Trie.walk nibble target depth (.inner children)).1.length
          = ((children (nibble target depth)).walk nibble target (depth + 1)).1.length + 1 := rfl
      rw [length] at shallow
      rw [pathFrom, if_neg (by omega), ih (nibble target depth) (by omega) ends]
      rfl

/-- A key that leads elsewhere is refused. -/
theorem pathFrom_refused {target : Bytes 32} (node : Node)
    : ∀ {depth : Nat}, depth + (node.walk nibble target depth).1.length ≤ maxDepth
      → (∀ hash, (node.walk nibble target depth).2 ≠ .leaf target hash)
      → ∃ message, pathFrom sha512half target depth node = .error (.refused message) := by
  induction node with
  | empty => exact fun _ _ => ⟨_, rfl⟩
  | leaf key value =>
      intro depth shallow elsewhere
      have other : key ≠ target := by
        rintro rfl
        exact elsewhere value rfl
      rw [pathFrom, if_pos other]
      exact ⟨_, rfl⟩
  | inner children ih =>
      intro depth shallow elsewhere
      have length : (Trie.walk nibble target depth (.inner children)).1.length
          = ((children (nibble target depth)).walk nibble target (depth + 1)).1.length + 1 := rfl
      rw [length] at shallow
      obtain ⟨message, refused⟩ := ih (nibble target depth) (by omega) elsewhere
      rw [pathFrom, if_neg (by omega), refused]
      exact ⟨message, rfl⟩

theorem verifyTxInclusion_eq_ok_iff {transactionHash key : Bytes 32}
    {txBlob metadata : List UInt8} {path : List (Bytes 512)}
    : verifyTxInclusion sha512half transactionHash txBlob metadata path = .ok key
      ↔ Writable (txBlob, metadata)
        ∧ path.length ≤ maxDepth
        ∧ (scheme sha512half).climb nibble (txId sha512half txBlob) 0 path
            (sha512half (leafText sha512half (txBlob, metadata)))
          = .ok transactionHash
        ∧ key = txId sha512half txBlob := by
  unfold verifyTxInclusion
  cases hashed : txLeafHash sha512half txBlob metadata with
  | error message =>
      refine ⟨fun accepted => (by cases accepted), fun given => ?_⟩
      rw [txLeafHash_eq_ok_iff.mpr ⟨given.1, rfl⟩] at hashed
      cases hashed
  | ok leaf =>
      obtain ⟨writable, rfl⟩ := txLeafHash_eq_ok_iff.mp hashed
      dsimp only
      split_ifs with deep
      · exact ⟨fun accepted => (by cases accepted), fun given => absurd given.2.1 (by omega)⟩
      · cases climbed : (scheme sha512half).climb nibble (txId sha512half txBlob) 0 path
          (sha512half (leafText sha512half (txBlob, metadata))) with
        | error depth =>
            exact ⟨fun accepted => (by cases accepted), fun given => (by cases given.2.2.1)⟩
        | ok running =>
            dsimp only
            split_ifs with reached
            · refine ⟨fun accepted => (by cases accepted), fun given => ?_⟩
              exact absurd (Except.ok.inj given.2.2.1) reached
            · obtain rfl := not_not.mp reached
              exact ⟨fun accepted => ⟨writable, by omega, rfl, (Except.ok.inj accepted).symm⟩,
                fun given => congrArg Except.ok given.2.2.2.symm⟩

/-- The path that the tree has for a key. -/
def pathOf (sha512half : List UInt8 → Bytes 32) (map : TxShaMap) (target : Bytes 32)
    : List (Bytes 512) :=
  (scheme sha512half).opening nibble target 0 map.root

theorem mem_entriesOf {items : List Item} {item : Item} (member : item ∈ items)
    : (txId sha512half item.1, sha512half (leafText sha512half item))
      ∈ entriesOf sha512half items :=
  List.mem_map_of_mem member

theorem length_pathOf {items : List Item} {map : TxShaMap}
    (built : TxShaMap.build sha512half items = .ok map) (target : Bytes 32)
    : (pathOf sha512half map target).length ≤ maxDepth := by
  obtain ⟨-, -, isRoot⟩ := build_eq_ok_iff.mp built
  rw [pathOf, Merkle.opening, List.length_map, isRoot]
  exact length_walk_rootOf _ _

/-- The path of a listed transaction checks. -/
theorem verifyTxInclusion_pathOf {items : List Item} {map : TxShaMap}
    (built : TxShaMap.build sha512half items = .ok map) {item : Item} (member : item ∈ items)
    : verifyTxInclusion sha512half (map.rootHash sha512half) item.1 item.2
        (pathOf sha512half map (txId sha512half item.1))
      = .ok (txId sha512half item.1) := by
  obtain ⟨writable, spread, isRoot⟩ := build_eq_ok_iff.mp built
  have ends := (walk_rootOf spread (mem_entriesOf member)).1
  rw [← isRoot] at ends
  have climbed := (scheme sha512half).climb_opening nibble (txId sha512half item.1) map.root 0
  rw [ends] at climbed
  exact verifyTxInclusion_eq_ok_iff.mpr
    ⟨writable item member, length_pathOf built _, climbed, rfl⟩

/-- A key that leads to its own leaf has a proof. -/
theorem inclusionProof_ok {items : List Item} {map : TxShaMap}
    (built : TxShaMap.build sha512half items = .ok map) {target hash : Bytes 32}
    (ends : (map.root.walk nibble target 0).2 = .leaf target hash)
    : map.inclusionProof sha512half target
      = .ok ⟨target, pathOf sha512half map target⟩ := by
  have shallow := length_pathOf built target
  rw [pathOf, Merkle.opening, List.length_map, ← Nat.zero_add (List.length _)] at shallow
  rw [TxShaMap.inclusionProof, pathFrom_ok map.root shallow ends]
  rfl

/-- What a key leads to is listed. -/
theorem exists_item_of_walk {items : List Item} {map : TxShaMap}
    (built : TxShaMap.build sha512half items = .ok map) {target key hash : Bytes 32}
    (ends : (map.root.walk nibble target 0).2 = .leaf key hash)
    : ∃ item ∈ items, txId sha512half item.1 = key
      ∧ sha512half (leafText sha512half item) = hash := by
  obtain ⟨-, spread, isRoot⟩ := build_eq_ok_iff.mp built
  obtain ⟨way, found, -⟩ := Trie.walk_at nibble target map.root 0
  rw [ends, isRoot] at found
  obtain ⟨item, member, isEntry⟩ := List.mem_map.mp (rootOf_at spread found).1
  exact ⟨item, member, congrArg Prod.fst isEntry, congrArg Prod.snd isEntry⟩

end Paths

-----------------------------------------------------------------------------------------
-- Two transactions
-----------------------------------------------------------------------------------------

/-- A number as 32 bytes, the most significant first. -/
def bytes32 (value : Nat) : Bytes 32 :=
  List.Vector.ofFn (fun index : Fin 32 => UInt8.ofNat (value / 256 ^ (31 - index.val)))

def firstItem : Item := ([0x12, 0x00, 0x00], [0x20, 0x1C])

def secondItem : Item := ([0x12, 0x00, 0x02], [0x20, 0x1C])

def firstId : Nat := 0xdc71b939905587cdf8410b02aca9cc5e2bed966cc46c2d524ea08b62e2437a7d

def secondId : Nat := 0xc802dea7b1c67a4ce123c3c70268fc5bbd90711b5abdd02c0cb4d647bab803da

/-- SHA-512Half on the ids and leaves of the two transactions. -/
def pairDigests : List (List UInt8 × Nat) :=
  [(hpTxnId ++ firstItem.1, firstId),
    (hpTxnId ++ secondItem.1, secondId),
    (hpTxNode ++ [0x03, 0x12, 0x00, 0x00, 0x02, 0x20, 0x1C] ++ (bytes32 firstId).toList,
      0x1f214c984f4e36f155b0174b49c08a9b02c20a3c53fac62ebbea361e09892305),
    (hpTxNode ++ [0x03, 0x12, 0x00, 0x02, 0x02, 0x20, 0x1C] ++ (bytes32 secondId).toList,
      0xf4711de542f5b0eb02c5e0e67933e392fd377179cba6ce851bd01169e85d25b7)]

/-- The same, and on their tree, which has one inner node. -/
def pairSha512half (text : List UInt8) : Bytes 32 :=
  if text.take 4 = hpInner then
    bytes32 0xdb671893131f89d2c989cd471aba792ca5181caadcec8d43171d3d03a42a80da
  else bytes32 ((pairDigests.lookup text).getD 0)

def pairMap : TxShaMap := ⟨rootOf (entriesOf pairSha512half [firstItem, secondItem])⟩

theorem pairMap_built
    : TxShaMap.build pairSha512half [firstItem, secondItem] = .ok pairMap := by
  refine build_eq_ok_iff.mpr ⟨?_, ?_, rfl⟩
  · simp [Writable, firstItem, secondItem]
  · have differ : nibble (txId pairSha512half firstItem.1) 0
        ≠ nibble (txId pairSha512half secondItem.1) 0 := by decide +kernel
    refine List.pairwise_pair.mpr ⟨0, Nat.le_refl 0, by omega, differ⟩

-----------------------------------------------------------------------------------------
-- Completeness
-----------------------------------------------------------------------------------------

/-- Every listed transaction has a path, of one node at least and 64 at most, and it checks
against the root hash.
-/
theorem inclusion_complete {sha512half : List UInt8 → Bytes 32} {items : List Item}
    {map : TxShaMap} (built : TxShaMap.build sha512half items = .ok map)
    {txBlob metadata : List UInt8} (member : (txBlob, metadata) ∈ items)
    : ∃ path,
        map.inclusionProof sha512half (txId sha512half txBlob)
          = .ok ⟨txId sha512half txBlob, path⟩
        ∧ 1 ≤ path.length
        ∧ path.length ≤ 64
        ∧ verifyTxInclusion sha512half (map.rootHash sha512half) txBlob metadata path
          = .ok (txId sha512half txBlob) := by
  obtain ⟨-, spread, isRoot⟩ := build_eq_ok_iff.mp built
  obtain ⟨ends, positive⟩ := walk_rootOf spread (mem_entriesOf member)
  rw [← isRoot] at ends positive
  refine ⟨pathOf sha512half map (txId sha512half txBlob), inclusionProof_ok built ends, ?_,
    length_pathOf built _, verifyTxInclusion_pathOf built member⟩
  rw [pathOf, Merkle.opening, List.length_map]
  exact positive

theorem inclusion_complete_pair
    : ∃ path,
        pairMap.inclusionProof pairSha512half (bytes32 firstId) = .ok ⟨bytes32 firstId, path⟩
        ∧ 1 ≤ path.length
        ∧ path.length ≤ 64
        ∧ verifyTxInclusion pairSha512half (pairMap.rootHash pairSha512half) firstItem.1
            firstItem.2 path
          = .ok (bytes32 firstId) := by
  have isId : txId pairSha512half firstItem.1 = bytes32 firstId := by decide +kernel
  rw [← isId]
  exact inclusion_complete pairMap_built List.mem_cons_self

-----------------------------------------------------------------------------------------
-- Soundness
-----------------------------------------------------------------------------------------

section Soundness

variable (sha512half : List UInt8 → Bytes 32)

/-- The texts that are hashed when a tree is formed and a path is checked against it. -/
inductive Hashed (items : List Item) (map : TxShaMap) (item : Item) (path : List (Bytes 512))
    : List UInt8 → Prop where
  | listed {other : Item} (member : other ∈ items)
    : Hashed items map item path (leafText sha512half other)
  | checked : Hashed items map item path (leafText sha512half item)
  | inTree {way : List (Fin 16)} {children : Fin 16 → Node}
    (found : map.root.At way (.inner children))
    : Hashed items map item path (innerText ((scheme sha512half).nodeOf children))
  | onPath {node : Bytes 512} (member : node ∈ path)
    : Hashed items map item path (innerText node)

/-- Among some texts no two have the same digest, and none has the digest that is all zero. -/
structure CollisionFree (texts : List UInt8 → Prop) : Prop where
  distinct : ∀ {left right}, texts left → texts right → sha512half left = sha512half right
    → left = right
  nonzero : ∀ {text}, texts text → sha512half text ≠ List.Vector.replicate 32 0

variable {sha512half}

theorem CollisionFree.separates {items : List Item} {map : TxShaMap} {item : Item}
    {path : List (Bytes 512)}
    (collisionFree : CollisionFree sha512half (Hashed sha512half items map item path))
    (built : TxShaMap.build sha512half items = .ok map)
    : (scheme sha512half).Separates map.root path (sha512half (leafText sha512half item)) where
  start_ne_absent := collisionFree.nonzero .checked
  start_ne_inner := by
    intro way children found same
    have texts := collisionFree.distinct .checked (.inTree found) same
    exact leafText_ne_innerText sha512half item _ texts
  node_ne_absent := fun node member => collisionFree.nonzero (.onPath member)
  node_ne_leaf := by
    intro node member way key hash found same
    obtain ⟨-, spread, isRoot⟩ := build_eq_ok_iff.mp built
    rw [isRoot] at found
    obtain ⟨other, listed, isEntry⟩ := List.mem_map.mp (rootOf_at spread found).1
    cases isEntry
    have texts := collisionFree.distinct (.listed listed) (.onPath member) same.symm
    exact leafText_ne_innerText sha512half other node texts
  node_eq := by
    intro node member way children found same
    exact innerText_injective (collisionFree.distinct (.onPath member) (.inTree found) same)

end Soundness

/-- A path that checks is the one of a listed transaction, and a key that is not the id of a
listed transaction has none.
-/
theorem inclusion_sound {sha512half : List UInt8 → Bytes 32} {items : List Item}
    {map : TxShaMap} (built : TxShaMap.build sha512half items = .ok map)
    : (∀ (txBlob metadata : List UInt8) (path : List (Bytes 512)) (key : Bytes 32),
        CollisionFree sha512half (Hashed sha512half items map (txBlob, metadata) path)
        → verifyTxInclusion sha512half (map.rootHash sha512half) txBlob metadata path = .ok key
        → (txBlob, metadata) ∈ items
          ∧ map.inclusionProof sha512half (txId sha512half txBlob)
            = .ok ⟨txId sha512half txBlob, path⟩)
      ∧ ∀ target,
          (∀ item ∈ items, txId sha512half item.1 ≠ target)
          → ∃ message, map.inclusionProof sha512half target = .error (.refused message) := by
  constructor
  · intro txBlob metadata path key collisionFree accepted
    obtain ⟨writable, -, climbed, -⟩ := verifyTxInclusion_eq_ok_iff.mp accepted
    obtain ⟨opened, leafKey, hash, ends, sameHash⟩ := Merkle.climb_sound path 0 map.root
      (collisionFree.separates built) climbed
    obtain ⟨item, member, isKey, isHash⟩ := exists_item_of_walk built ends
    have texts := collisionFree.distinct (.listed member) .checked (isHash.trans sameHash)
    have allWritable := (build_eq_ok_iff.mp built).1
    obtain rfl := leafText_injective sha512half (allWritable item member) writable texts
    obtain rfl := isKey
    refine ⟨member, ?_⟩
    rw [inclusionProof_ok built ends, pathOf, opened]
  · intro target unlisted
    have shallow := length_pathOf built target
    rw [pathOf, Merkle.opening, List.length_map, ← Nat.zero_add (List.length _)] at shallow
    have elsewhere : ∀ hash, (map.root.walk nibble target 0).2 ≠ .leaf target hash := by
      intro hash ends
      obtain ⟨item, member, isKey, -⟩ := exists_item_of_walk built ends
      exact unlisted item member isKey
    obtain ⟨message, refused⟩ := pathFrom_refused map.root shallow elsewhere
    exact ⟨message, by rw [TxShaMap.inclusionProof, refused]; rfl⟩

def pairChildren : Fin 16 → Node :=
  Trie.childrenOf nibble 63 0 (entriesOf pairSha512half [firstItem, secondItem])

/-- Below the root there are leaves only. -/
theorem pairChildren_leaf (branch : Fin 16)
    : pairChildren branch = .empty ∨ ∃ key hash, pairChildren branch = .leaf key hash := by
  have atMostOne : ∀ branch, (Trie.inBranch nibble 0
      (entriesOf pairSha512half [firstItem, secondItem]) branch).length ≤ 1 := by decide +kernel
  have few := atMostOne branch
  unfold pairChildren Trie.childrenOf
  generalize Trie.inBranch nibble 0 _ branch = entries at few
  match entries, few with
  | [], _ => exact .inl rfl
  | [entry], _ => exact .inr ⟨entry.1, entry.2, rfl⟩

/-- What is hashed are the two leaves and the root. -/
theorem hashed_pair {text : List UInt8}
    (hashed
      : Hashed pairSha512half [firstItem, secondItem] pairMap firstItem
          (pathOf pairSha512half pairMap (txId pairSha512half firstItem.1)) text)
    : text = leafText pairSha512half firstItem
      ∨ text = leafText pairSha512half secondItem
      ∨ text = innerText ((scheme pairSha512half).nodeOf pairChildren) := by
  cases hashed with
  | listed member =>
      rcases List.mem_pair.mp member with rfl | rfl
      · exact .inl rfl
      · exact .inr (.inl rfl)
  | checked => exact .inl rfl
  | inTree found =>
      refine .inr (.inr ?_)
      have isRoot : pairMap.root = .inner pairChildren := rfl
      rw [isRoot] at found
      cases found with
      | here => rfl
      | @child _ branch _ _ deeper =>
          rcases pairChildren_leaf branch with isEmpty | ⟨key, hash, isLeaf⟩
          · rw [isEmpty] at deeper
            cases deeper
          · rw [isLeaf] at deeper
            cases deeper
  | @onPath node member =>
      refine .inr (.inr ?_)
      have below : ((pairChildren (nibble (txId pairSha512half firstItem.1) 0)).walk nibble
          (txId pairSha512half firstItem.1) 1).1 = [] := by
        rcases pairChildren_leaf (nibble (txId pairSha512half firstItem.1) 0)
          with isEmpty | ⟨key, hash, isLeaf⟩
        · rw [isEmpty]
          rfl
        · rw [isLeaf]
          rfl
      have path : pathOf pairSha512half pairMap (txId pairSha512half firstItem.1)
          = [(scheme pairSha512half).nodeOf pairChildren] := by
        show (scheme pairSha512half).nodeOf pairChildren :: List.map _ _ = _
        exact congrArg (_ :: List.map (scheme pairSha512half).nodeOf ·) below
      rw [path] at member
      rw [List.mem_singleton.mp member]

theorem pairSha512half_collisionFree
    : CollisionFree pairSha512half
        (Hashed pairSha512half [firstItem, secondItem] pairMap firstItem
          (pathOf pairSha512half pairMap (txId pairSha512half firstItem.1))) := by
  have first : pairSha512half (leafText pairSha512half firstItem)
      = bytes32 0x1f214c984f4e36f155b0174b49c08a9b02c20a3c53fac62ebbea361e09892305 := by
    decide +kernel
  have second : pairSha512half (leafText pairSha512half secondItem)
      = bytes32 0xf4711de542f5b0eb02c5e0e67933e392fd377179cba6ce851bd01169e85d25b7 := by
    decide +kernel
  have root : pairSha512half (innerText ((scheme pairSha512half).nodeOf pairChildren))
      = bytes32 0xdb671893131f89d2c989cd471aba792ca5181caadcec8d43171d3d03a42a80da :=
    if_pos rfl
  constructor
  · intro left right leftHashed rightHashed same
    rcases hashed_pair leftHashed with rfl | rfl | rfl <;>
      rcases hashed_pair rightHashed with rfl | rfl | rfl <;>
      first
        | rfl
        | (simp only [first, second, root] at same
           exact absurd same (by decide +kernel))
  · intro text hashed
    rcases hashed_pair hashed with rfl | rfl | rfl
    · rw [first]
      decide +kernel
    · rw [second]
      decide +kernel
    · rw [root]
      decide +kernel

theorem inclusion_sound_pair
    : CollisionFree pairSha512half
        (Hashed pairSha512half [firstItem, secondItem] pairMap firstItem
          (pathOf pairSha512half pairMap (txId pairSha512half firstItem.1)))
      ∧ firstItem ∈ [firstItem, secondItem]
      ∧ pairMap.inclusionProof pairSha512half (txId pairSha512half firstItem.1)
        = .ok
            ⟨txId pairSha512half firstItem.1,
              pathOf pairSha512half pairMap (txId pairSha512half firstItem.1)⟩
      ∧ ∃ message,
          pairMap.inclusionProof pairSha512half (bytes32 0) = .error (.refused message) := by
  obtain ⟨sound, unlisted⟩ := inclusion_sound pairMap_built
  have accepted := verifyTxInclusion_pathOf pairMap_built List.mem_cons_self
  obtain ⟨member, proof⟩ := sound _ _ _ _ pairSha512half_collisionFree accepted
  refine ⟨pairSha512half_collisionFree, member, proof, unlisted _ ?_⟩
  decide +kernel

-----------------------------------------------------------------------------------------
-- The order of the transactions
-----------------------------------------------------------------------------------------

theorem rootOf_perm {entries entries' : List (Bytes 32 × Bytes 32)}
    (perm : entries.Perm entries')
    : rootOf entries = rootOf entries' := by
  have sameEmpty : entries.isEmpty = entries'.isEmpty := perm.isEmpty_eq
  rw [rootOf, rootOf, sameEmpty, Trie.childrenOf_perm perm]

theorem build_perm {sha512half : List UInt8 → Bytes 32} {items items' : List Item}
    (perm : items.Perm items') {map : TxShaMap}
    (built : TxShaMap.build sha512half items = .ok map)
    : TxShaMap.build sha512half items' = .ok map := by
  obtain ⟨writable, spread, isRoot⟩ := build_eq_ok_iff.mp built
  have entries := perm.map (entryOf sha512half)
  refine build_eq_ok_iff.mpr ⟨?_, spread.perm entries, isRoot.trans (rootOf_perm entries)⟩
  exact fun item member => writable item (perm.mem_iff.mpr member)

/-- Standing alone among the entries, in terms of the transactions. -/
theorem alone_entriesOf_iff {sha512half : List UInt8 → Bytes 32} {items : List Item}
    {key : Bytes 32} {depth : Nat}
    : Trie.Alone nibble 0 (entriesOf sha512half items) key depth
      ↔ ∀ item ∈ items,
          txId sha512half item.1 ≠ key
          → ∃ level < depth, nibble (txId sha512half item.1) level ≠ nibble key level := by
  unfold Trie.Alone entriesOf
  rw [List.forall_mem_map]
  simp [Trie.Apart, entryOf]

/-- Transactions in another order give the same tree or none, and in it every leaf stands at
the least depth, one at least, at which the key differs from all others.
-/
theorem tree_canonical {sha512half : List UInt8 → Bytes 32} {items items' : List Item}
    (perm : items.Perm items')
    : (∀ map,
        TxShaMap.build sha512half items = .ok map ↔ TxShaMap.build sha512half items' = .ok map)
      ∧ ∀ map,
          TxShaMap.build sha512half items = .ok map
          → ∀ way key hash,
              map.root.At way (.leaf key hash)
              → IsLeast
                  {depth
                    | 1 ≤ depth
                      ∧ ∀ item ∈ items,
                          txId sha512half item.1 ≠ key
                          → ∃ level < depth,
                              nibble (txId sha512half item.1) level ≠ nibble key level}
                  way.length := by
  constructor
  · exact fun map => ⟨build_perm perm, build_perm perm.symm⟩
  · intro map built way key hash found
    obtain ⟨-, spread, isRoot⟩ := build_eq_ok_iff.mp built
    rw [isRoot] at found
    have least := (rootOf_at spread found).2
    simp only [alone_entriesOf_iff] at least
    exact least

theorem tree_canonical_pair
    : TxShaMap.build pairSha512half [firstItem, secondItem] = .ok pairMap
      ∧ TxShaMap.build pairSha512half [secondItem, firstItem] = .ok pairMap := by
  have perm : [firstItem, secondItem].Perm [secondItem, firstItem] := List.Perm.swap _ _ _
  exact ⟨pairMap_built, ((tree_canonical perm).1 pairMap).mp pairMap_built⟩

end PerpDex.TxShamap
