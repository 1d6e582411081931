import PerpDex.Lib.Merkle
import PerpDex.Membership.Statement

/-! The transaction tree of a ledger, rebuilt from its transactions.
A leaf holds the hash of a transaction with its metadata, under the transaction's id. The
inclusion path of a transaction is read off the tree and can be checked against the root hash
that the ledger header carries. SHA-512Half comes from a library and is a parameter.
-/

namespace PerpDex.TxShamap

/-- `'TXN\0'`, the prefix of what a transaction id is the hash of. -/
def hpTxnId : List UInt8 := [0x54, 0x58, 0x4E, 0x00]

/-- `'SND\0'`, that of a leaf. -/
def hpTxNode : List UInt8 := [0x53, 0x4E, 0x44, 0x00]

/-- `'MIN\0'`, that of an inner node. -/
def hpInner : List UInt8 := [0x4D, 0x49, 0x4E, 0x00]

def maxDepth : Nat := 64

-----------------------------------------------------------------------------------------
-- Hashes
-----------------------------------------------------------------------------------------

/-- `u8::try_from` with the message for what does not fit. -/
def vlByte (value : Nat) (what : String) : Except String UInt8 :=
  if value < 256 then .ok (UInt8.ofNat value)
  else .error s!"VL {what} byte out of range: {value}"

def checkedSub (left right : Nat) (context : String) : Except String Nat :=
  if right ≤ left then .ok (left - right) else .error context

/-- The length of a field in the variable-length encoding of the ledger. -/
def vlPrefix (n : Nat) : Except String (List UInt8) :=
  if n ≤ 192 then do
    let single ← vlByte n "single-byte length"
    .ok [single]
  else if n ≤ 12480 then do
    let v ← checkedSub n 193 "VL 2-byte base underflow"
    let high ← vlByte (193 + v / 2 ^ 8) "2-byte high"
    .ok [high, UInt8.ofNat (v % 2 ^ 8)]
  else if n ≤ 918744 then do
    let v ← checkedSub n 12481 "VL 3-byte base underflow"
    let high ← vlByte (241 + v / 2 ^ 16) "3-byte high"
    .ok [high, UInt8.ofNat (v / 2 ^ 8 % 2 ^ 8), UInt8.ofNat (v % 2 ^ 8)]
  else .error s!"VL length {n} exceeds the XRPL maximum of 918744"

section Hashes

variable (sha512half : List UInt8 → Bytes 32)

/-- The id of a transaction is its key in the tree. -/
def txId (txBlob : List UInt8) : Bytes 32 := sha512half (hpTxnId ++ txBlob)

def txLeafHash (txBlob metadata : List UInt8) : Except String (Bytes 32) := do
  let key := txId sha512half txBlob
  let lv ← vlPrefix txBlob.length
  let mv ← vlPrefix metadata.length
  .ok (sha512half (hpTxNode ++ (lv ++ (txBlob ++ (mv ++ (metadata ++ key.toList))))))

/-- The branch of a key at a depth, the high half of a byte first. Beyond the last half byte
the source panics; its callers are modelled with that.
-/
def nibble (key : Bytes 32) (depth : Nat) : Fin 16 :=
  let byte := key.toList.getD (depth / 2) 0
  if depth % 2 = 0 then Fin.ofNat 16 (byte.toNat / 16) else Fin.ofNat 16 (byte.toNat % 16)

/-- The digests of sixteen children one after the other. -/
def flatten (digests : Fin 16 → Bytes 32) : Bytes 512 :=
  List.Vector.ofFn (fun index : Fin 512 =>
    (digests ⟨index / 32, by omega⟩).get ⟨index % 32, by omega⟩)

/-- The 32 bytes of one branch. -/
def branchOf (node : Bytes 512) (branch : Fin 16) : Bytes 32 :=
  List.Vector.ofFn (fun index : Fin 32 => node.get ⟨branch * 32 + index, by omega⟩)

theorem branchOf_flatten (digests : Fin 16 → Bytes 32) (branch : Fin 16)
    : branchOf (flatten digests) branch = digests branch := by
  refine List.Vector.ext (fun index => ?_)
  have quotient : (branch.val * 32 + index.val) / 32 = branch.val := by omega
  have remainder : (branch.val * 32 + index.val) % 32 = index.val := by omega
  simp only [branchOf, flatten, List.Vector.get_ofFn, quotient, remainder]

/-- A leaf carries its hash, an inner node is hashed over its children, an absent child is
zero.
-/
def scheme : Merkle (Fin 16) (Bytes 32) (Bytes 32) (Bytes 512) (Bytes 32) where
  absent := List.Vector.replicate 32 0
  leaf := fun _ hash => hash
  join := flatten
  branch := branchOf
  inner := fun node => sha512half (hpInner ++ node.toList)
  branch_join := branchOf_flatten

end Hashes

-----------------------------------------------------------------------------------------
-- The tree
-----------------------------------------------------------------------------------------

abbrev Node := Trie (Fin 16) (Bytes 32) (Bytes 32)

def emptyInner : Node := .inner (fun _ => .empty)

def branching : Trie.Branching (Fin 16) (Bytes 32) String where
  digit := nibble
  full :=
    "two transactions share a full 32-byte tx-ID — impossible without a SHA-512 collision"
  duplicate := some "duplicate tx-ID in one ledger"

def Node.insert (node : Node) (key hash : Bytes 32) (depth : Nat) : Except String Node :=
  Trie.insert branching (maxDepth - depth) depth node key hash

structure TxShaMap where
  root : Node

/-- The inner nodes from the root to the leaf. -/
structure TxInclusionProof where
  txId : Bytes 32
  innerRootToLeaf : List (Bytes 512)
deriving DecidableEq

/-- How producing or checking a path ends without a result. -/
inductive PathError where
  | refused (message : String)
  /-- A key has no half byte at this depth. -/
  | panicked
deriving DecidableEq

section Map

variable (sha512half : List UInt8 → Bytes 32)

def insertItem (root : Node) (item : List UInt8 × List UInt8) : Except String Node := do
  let key := txId sha512half item.1
  let leaf ← txLeafHash sha512half item.1 item.2
  Node.insert root key leaf 0

/-- The tree of the transactions of a ledger, each with its metadata. The root is an inner
node unless there are none.
-/
def TxShaMap.build (items : List (List UInt8 × List UInt8)) : Except String TxShaMap := do
  let root ← items.foldlM (insertItem sha512half) (if items.isEmpty then .empty else emptyInner)
  .ok ⟨root⟩

def TxShaMap.rootHash (map : TxShaMap) : Bytes 32 := (scheme sha512half).hash map.root

/-- The nodes from one at `depth` on down to the leaf of the key. -/
def pathFrom (target : Bytes 32) : Nat → Node → Except PathError (List (Bytes 512))
  | depth, .inner children => do
      if maxDepth ≤ depth then .error .panicked
      else
        let deeper ← pathFrom target (depth + 1) (children (nibble target depth))
        .ok ((scheme sha512half).nodeOf children :: deeper)
  | _, .leaf key _ =>
      if key ≠ target then
        .error (.refused
          "transaction is not in this ledger's tx tree (a different key sits at its slot)")
      else .ok []
  | depth, .empty =>
      .error (.refused
        s!"transaction is not in this ledger's tx tree (empty slot at depth {depth})")

def TxShaMap.inclusionProof (map : TxShaMap) (target : Bytes 32)
    : Except PathError TxInclusionProof := do
  let path ← pathFrom sha512half target 0 map.root
  .ok ⟨target, path⟩

/-- Replay of the enclave's check, from the leaf up. -/
def verifyTxInclusion (transactionHash : Bytes 32) (txBlob metadata : List UInt8)
    (innerRootToLeaf : List (Bytes 512)) : Except PathError (Bytes 32) :=
  let key := txId sha512half txBlob
  match txLeafHash sha512half txBlob metadata with
  | .error message => .error (.refused message)
  | .ok leaf =>
      -- the walk starts at the deepest node, where the key may have no half byte
      if maxDepth < innerRootToLeaf.length then .error .panicked
      else
        match (scheme sha512half).climb nibble key 0 innerRootToLeaf leaf with
        | .error depth =>
            let nib := nibble key depth
            .error (.refused
              s!"inclusion failed at depth {depth}: branch {nib} does not hold the running hash")
        | .ok running =>
            if running ≠ transactionHash then
              .error (.refused
                "inclusion failed at the root: rebuilt path does not reach transaction_hash")
            else .ok key

end Map

end PerpDex.TxShamap
