import Mathlib.Algebra.BigOperators.Group.Finset.Basic
import Mathlib.Algebra.BigOperators.Group.List.Basic
import XChainEncoder.Requests

/-!
# Mempool entries

What the connector reads of unconfirmed ancestors when a build asks for their size and fees.

* `readNumeric`, `entrySize`, `entryFee`: one mempool entry, in either field layout;
* `recordPackageEntry`, `collectAncestorBranch`, `getUnconfirmedAncestorPackage`: one map over the
  branches of all roots, each branch staged until both its calls have described one mempool;
* `Consistent`: a node that reads one transaction alike wherever it lists it.
-/

namespace XChain

/-! ## Entries -/

/-- A JSON value. -/
inductive Json where
  | null
  | bool (b : Bool)
  | number (q : ℚ)
  | string (s : Text)
  | array (values : List Json)
  | object (fields : List (Text × Json))

namespace Json

/-- JavaScript's truth of a value. -/
def truthy : Json → Bool
  | .null => false
  | .bool b => b
  | .number q => q ≠ 0
  | .string s => s ≠ []
  | .array _ | .object _ => true

/-- A field of a value; `none` where it reads as `undefined`. -/
def field (j : Json) (name : String) : Option Json :=
  match j with
  | .object fields => fields.lookup name.toList
  | _ => none

end Json

/-- The number a string spells: `Number` of its trimmed text, `none` when that is blank or not
finite. -/
abbrev NumberText := Text → Option ℚ

variable (spelled : NumberText)

/-- Only numbers, and strings that spell one. -/
def readNumeric (raw : Option Json) : Option ℚ :=
  match raw with
  | some (.number q) => some q
  | some (.string s) => spelled s
  | _ => none

/-- `vsize`, or `size` where that is not there. -/
def entrySize (entry : Json) : Option ℚ :=
  let raw := if entry.truthy then (entry.field "vsize").or (entry.field "size") else some entry
  (readNumeric spelled raw).filter (0 < ·)

/-- `fees.base`, or `fee` where that is not there. -/
def entryFee (entry : Json) : Option ℚ :=
  let raw := if entry.truthy then
      (((entry.field "fees").filter Json.truthy).bind (Json.field · "base")).or (entry.field "fee")
    else some entry
  (readNumeric spelled raw).filter (0 ≤ ·)

/-- What is summed of one unconfirmed transaction. -/
structure PackageEntry where
  size : ℚ
  fee : ℚ
  deriving DecidableEq, Repr

/-- A `Map` by its insertion order. -/
abbrev PackageMap := List (Text × PackageEntry)

namespace PackageMap

/-- The transactions of the map. -/
def keys (m : PackageMap) : List Text := m.map Prod.fst

/-- Whether a transaction is in the map. -/
def has (m : PackageMap) (key : Text) : Bool := key ∈ m.keys

/-- Put a transaction into the map; one that is there keeps its place. -/
def set (m : PackageMap) (key : Text) (entry : PackageEntry) : PackageMap :=
  if m.has key then m.map fun p => if p.1 = key then (key, entry) else p else m ++ [(key, entry)]

end PackageMap

/-! ## The connector -/

/-- The verdict of `mempoolRpc`. -/
inductive MempoolReply where
  | ok (result : Json)
  | absent
  | failed

/-- What the node answers for a txid. A package asks for each root once by either method, so the
answers may come from different moments. -/
structure MempoolNode where
  getmempoolentry : Text → MempoolReply
  getmempoolancestors : Text → MempoolReply

/-- First occurrences by lowercase txid. -/
def uniqueTxids : List Text → List Text → List Text
  | [], _ => []
  | txid :: txids, seenRoots =>
    if txid = [] then uniqueTxids txids seenRoots
    else if lower txid ∈ seenRoots then uniqueTxids txids seenRoots
    else txid :: uniqueTxids txids (lower txid :: seenRoots)

/-- The staged map with one entry more, or `none` when the entry cannot be priced. -/
def recordPackageEntry (packageEntries staged : PackageMap) (txid : Text) (entry : Json) :
    Option PackageMap :=
  let key := lower txid
  if packageEntries.has key || staged.has key then some staged
  else
    match entrySize spelled entry, entryFee spelled entry with
    | some size, some fee => some (staged.set key ⟨size, fee⟩)
    | _, _ => none

/-- The entries of every ancestor, unless one of them cannot be read. -/
def recordAncestors (packageEntries : PackageMap) : List (Text × Json) → PackageMap →
    Option PackageMap
  | [], staged => some staged
  | (ancestorTxid, entry) :: rest, staged =>
    (recordPackageEntry spelled packageEntries staged ancestorTxid entry).bind
      (recordAncestors packageEntries rest)

/-- What one input's branch adds to the package. -/
def mergeStaged (packageEntries staged : PackageMap) : PackageMap :=
  staged.foldl (fun m p => m.set p.1 p.2) packageEntries

/-- The package with the branch of one root, or `none` when it cannot be priced. -/
def collectAncestorBranch (node : MempoolNode) (packageEntries : PackageMap) (txid : Text) :
    Option PackageMap :=
  match node.getmempoolentry txid with
  | .absent => some packageEntries
  | .failed => none
  | .ok self =>
    (recordPackageEntry spelled packageEntries [] txid self).bind fun staged =>
      match node.getmempoolancestors txid with
      -- The root confirmed between the two calls: what is staged is stale.
      | .absent => some packageEntries
      | .failed => none
      | .ok (.object result) =>
        (recordAncestors spelled packageEntries result staged).map (mergeStaged packageEntries)
      | .ok _ => none

/-- The branches of the inputs, one after the other. -/
def collectBranches (node : MempoolNode) : List Text → PackageMap → Option PackageMap
  | [], packageEntries => some packageEntries
  | txid :: roots, packageEntries =>
    (collectAncestorBranch spelled node packageEntries txid).bind (collectBranches node roots)

/-- The package's size and fees. -/
def sumPackageEntries (packageEntries : PackageMap) : AncestorPackage where
  size := (packageEntries.map fun p => p.2.size).sum
  fees := (packageEntries.map fun p => p.2.fee).sum

/-- The package of the selected inputs, none when a branch cannot be read. -/
def getUnconfirmedAncestorPackage (node : MempoolNode) (txids : List Text) :
    Option AncestorPackage :=
  let roots := uniqueTxids txids []
  if roots = [] then some ⟨0, 0⟩
  else (collectBranches spelled node roots []).map sumPackageEntries

/-! ## What the node says -/

/-- The size and fee of an entry, when both can be read. -/
def readEntry (entry : Json) : Option PackageEntry :=
  match entrySize spelled entry, entryFee spelled entry with
  | some size, some fee => some ⟨size, fee⟩
  | _, _ => none

/-- One transaction reads alike wherever the node lists it, and its txid may be spelled in either
letter case. `reading` is by lowercase txid. -/
structure Consistent (node : MempoolNode) (reading : Text → Option PackageEntry) : Prop where
  entry : ∀ txid self, node.getmempoolentry txid = .ok self →
    readEntry spelled self = reading (lower txid)
  ancestors : ∀ txid result, node.getmempoolancestors txid = .ok (.object result) →
    ∀ p ∈ result, readEntry spelled p.2 = reading (lower p.1)
  letterCase : ∀ txid txid', lower txid = lower txid' →
    node.getmempoolentry txid = node.getmempoolentry txid' ∧
      node.getmempoolancestors txid = node.getmempoolancestors txid'

/-- A root was unconfirmed at both calls and `key` is it or an ancestor of it. -/
def InBranch (node : MempoolNode) (txid key : Text) : Prop :=
  ∃ self result, node.getmempoolentry txid = .ok self ∧
    node.getmempoolancestors txid = .ok (.object result) ∧
    (key = lower txid ∨ ∃ p ∈ result, key = lower p.1)

/-- A call failed, or an entry of the branch cannot be read. -/
inductive Unreadable (node : MempoolNode) (txid : Text) : Prop
  | entryFailed (h : node.getmempoolentry txid = .failed)
  | entry (self : Json) (h : node.getmempoolentry txid = .ok self)
      (hread : readEntry spelled self = none)
  | ancestorsFailed (self : Json) (h : node.getmempoolentry txid = .ok self)
      (hfailed : node.getmempoolancestors txid = .failed)
  | notVerbose (self result : Json) (h : node.getmempoolentry txid = .ok self)
      (hresult : node.getmempoolancestors txid = .ok result) (hshape : ∀ fields, result ≠ .object fields)
  | ancestor (self : Json) (result : List (Text × Json)) (h : node.getmempoolentry txid = .ok self)
      (hresult : node.getmempoolancestors txid = .ok (.object result)) (p : Text × Json)
      (hp : p ∈ result) (hread : readEntry spelled p.2 = none)

/-! ## A node with a shared parent -/

/-- Two children of one unconfirmed parent. -/
def siblings : List Text := [List.replicate 64 'a', List.replicate 64 'b']
def sharedParent : Text := List.replicate 64 'c'

/-- An entry in the layout of a current node. -/
def nodeEntry (entry : PackageEntry) : Json :=
  .object [("vsize".toList, .number entry.size),
    ("fees".toList, .object [("base".toList, .number entry.fee)])]

/-- What the transactions weigh and pay. -/
def siblingReading (key : Text) : Option PackageEntry :=
  if key ∈ siblings then some ⟨200, 1 / 100000⟩
  else if key = sharedParent then some ⟨300, 2 / 100000⟩
  else none

def siblingNode : MempoolNode where
  getmempoolentry txid :=
    if lower txid ∈ siblings then .ok (nodeEntry ⟨200, 1 / 100000⟩)
    else if lower txid = sharedParent then .ok (nodeEntry ⟨300, 2 / 100000⟩)
    else .absent
  getmempoolancestors txid :=
    if lower txid ∈ siblings then
      .ok (.object [(sharedParent, nodeEntry ⟨300, 2 / 100000⟩)])
    else if lower txid = sharedParent then .ok (.object [])
    else .absent

theorem consistent_siblingNode : Consistent (fun _ => none) siblingNode siblingReading where
  entry txid self h := by
    simp only [siblingNode] at h
    unfold siblingReading
    split_ifs at h ⊢
    · cases h
      decide +kernel
    · cases h
      decide +kernel
  ancestors txid result h p hp := by
    simp only [siblingNode] at h
    split_ifs at h
    · cases h
      rw [List.mem_singleton.mp hp]
      decide +kernel
    · cases h
      cases hp
  letterCase txid txid' h := by simp only [siblingNode, h, and_self]

end XChain
