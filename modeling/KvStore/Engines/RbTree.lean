import KvStore.Engines.Interface
import KvStore.Lib.RedBlack

/-!
# The red-black tree engine

`src/engines/kvs_rbtree.c`. The balancing code reads and writes only the links
and colors of the nodes, so it works on `RbLinks`; keys and values are fields
of the whole tree. Where the source has a branch and its mirror image, with
`left` and `right` exchanged throughout, the model has the branch once and the
side as a parameter.
-/

namespace KvStore

open Lib

abbrev RbLinks := Links Ptr Color

structure KvsRbtree where
  links : RbLinks
  key : Ptr → Option CString
  value : Ptr → Option CString

-- ---------------------------------------------------------------------------
-- Rotations and fixups
-- ---------------------------------------------------------------------------

/-- What rotations and the deletion share: `y` is hung where `x` hangs, the
child on side `s` of the parent being tried first. -/
def rbtreeReplace (s : Side) (T : RbLinks) (x y : Ptr) : RbLinks :=
  if T.parent x = T.nil then { T with root := y }
  else if x = T.child s (T.parent x) then T.setChild s (T.parent x) y
  else T.setChild s.other (T.parent x) y

/-- `rbtree_left_rotate` for `s = left`, `rbtree_right_rotate` for `s = right`:
the child `y` on the other side comes up and `x` goes down to side `s`. -/
def rbtreeRotate (s : Side) (T : RbLinks) (x : Ptr) : RbLinks :=
  let y := T.child s.other x
  let T := T.setChild s.other x (T.child s y)
  let T := if T.child s y ≠ T.nil then T.setParent (T.child s y) x else T
  let T := T.setParent y (T.parent x)
  let T := rbtreeReplace s T x y
  let T := T.setChild s y x
  T.setParent x y

def rbtreeLeftRotate (T : RbLinks) (x : Ptr) : RbLinks := rbtreeRotate .left T x

def rbtreeRightRotate (T : RbLinks) (y : Ptr) : RbLinks := rbtreeRotate .right T y

/-- The body of the insertion loop for a parent that is the child on side `s`
of the grandparent: the links and the node to go on with. -/
def insertFixupStep (s : Side) (T : RbLinks) (z : Ptr) : RbLinks × Ptr :=
  let y := T.child s.other (T.parent (T.parent z))
  if T.color y = .red then
    let T := T.setColor (T.parent z) .black
    let T := T.setColor y .black
    let T := T.setColor (T.parent (T.parent z)) .red
    (T, T.parent (T.parent z))
  else
    let (T, z) :=
      if z = T.child s.other (T.parent z) then (rbtreeRotate s T (T.parent z), T.parent z)
      else (T, z)
    let T := T.setColor (T.parent z) .black
    let T := T.setColor (T.parent (T.parent z)) .red
    (rbtreeRotate s.other T (T.parent (T.parent z)), z)

def rbtreeInsertFixup : Nat → RbLinks → Ptr → Except Stop RbLinks
  | 0, _, _ => .error .fuel
  | fuel + 1, T, z =>
    if T.color (T.parent z) = .red then
      let s := if T.parent z = T.child .left (T.parent (T.parent z)) then Side.left else .right
      let (T, z) := insertFixupStep s T z
      rbtreeInsertFixup fuel T z
    else .ok (T.setColor T.root .black)

/-- The first part of the deletion loop: a red sibling is rotated away. -/
def deleteFixupSibling (s : Side) (T : RbLinks) (x : Ptr) : RbLinks × Ptr :=
  let w := T.child s.other (T.parent x)
  if T.color w = .red then
    let T := T.setColor w .black
    let T := T.setColor (T.parent x) .red
    let T := rbtreeRotate s T (T.parent x)
    (T, T.child s.other (T.parent x))
  else (T, w)

/-- The second part, when a nephew is red: the loop ends after it. -/
def deleteFixupNephew (s : Side) (T : RbLinks) (x w : Ptr) : RbLinks :=
  let (T, w) :=
    if T.color (T.child s.other w) = .black then
      let T := T.setColor (T.child s w) .black
      let T := T.setColor w .red
      let T := rbtreeRotate s.other T w
      (T, T.child s.other (T.parent x))
    else (T, w)
  let T := T.setColor w (T.color (T.parent x))
  let T := T.setColor (T.parent x) .black
  let T := T.setColor (T.child s.other w) .black
  rbtreeRotate s T (T.parent x)

def rbtreeDeleteFixup : Nat → RbLinks → Ptr → Except Stop RbLinks
  | 0, _, _ => .error .fuel
  | fuel + 1, T, x =>
    if x ≠ T.root ∧ T.color x = .black then
      let s := if x = T.child .left (T.parent x) then Side.left else .right
      let (T, w) := deleteFixupSibling s T x
      if T.color (T.child .left w) = .black ∧ T.color (T.child .right w) = .black then
        rbtreeDeleteFixup fuel (T.setColor w .red) (T.parent x)
      else
        let T := deleteFixupNephew s T x w
        rbtreeDeleteFixup fuel T T.root
    else .ok (T.setColor x .black)

-- ---------------------------------------------------------------------------
-- Walking the tree
-- ---------------------------------------------------------------------------

def rbtreeMini : Nat → RbLinks → Ptr → Except Stop Ptr
  | 0, _, _ => .error .fuel
  | fuel + 1, T, x =>
    if T.child .left x ≠ T.nil then rbtreeMini fuel T (T.child .left x) else .ok x

/-- The upward loop of `rbtree_successor`. -/
def successorClimb : Nat → RbLinks → Ptr → Ptr → Except Stop Ptr
  | 0, _, _, _ => .error .fuel
  | fuel + 1, T, x, y =>
    if y ≠ T.nil ∧ x = T.child .right y then successorClimb fuel T y (T.parent y) else .ok y

def rbtreeSuccessor (fuel : Nat) (T : RbLinks) (x : Ptr) : Except Stop Ptr :=
  if T.child .right x ≠ T.nil then rbtreeMini fuel T (T.child .right x)
  else successorClimb fuel T x (T.parent x)

/-- The key `strcmp` reads at a node; a `NULL` key is undefined behaviour. -/
def KvsRbtree.keyAt (T : KvsRbtree) (x : Ptr) : Except Stop Bytes :=
  match T.key x with
  | none => .error .undefined
  | some k => .ok k.bytes

def rbtreeSearch (T : KvsRbtree) (key : Bytes) : Nat → Ptr → Except Stop Ptr
  | 0, _ => .error .fuel
  | fuel + 1, node =>
    if node ≠ T.links.nil then do
      let k ← T.keyAt node
      if strcmp key k < 0 then rbtreeSearch T key fuel (T.links.child .left node)
      else if strcmp key k > 0 then rbtreeSearch T key fuel (T.links.child .right node)
      else .ok node
    else .ok T.links.nil

/-- The descent of `rbtree_insert`: the node to hang the key below, or nothing
when the key is there already. -/
def insertDescend (T : KvsRbtree) (key : Bytes) : Nat → Ptr → Ptr → Except Stop (Option Ptr)
  | 0, _, _ => .error .fuel
  | fuel + 1, y, x =>
    if x ≠ T.links.nil then do
      let k ← T.keyAt x
      if strcmp key k < 0 then insertDescend T key fuel x (T.links.child .left x)
      else if strcmp key k > 0 then insertDescend T key fuel x (T.links.child .right x)
      else .ok none
    else .ok (some y)

/-- `rbtree_insert` hangs `z` below `y`, on the side of its key. -/
def insertHang (T : KvsRbtree) (key : Bytes) (L : RbLinks) (y z : Ptr) : Except Stop RbLinks :=
  if y = L.nil then .ok { L with root := z }
  else do
    let k ← T.keyAt y
    if strcmp key k < 0 then .ok (L.setChild .left y z) else .ok (L.setChild .right y z)

/-- `rbtree_insert` of a node whose key and value are set. -/
def rbtreeInsert (fuel : Nat) (T : KvsRbtree) (z : Ptr) : Except Stop KvsRbtree := do
  let key ← T.keyAt z
  match ← insertDescend T key fuel T.links.nil T.links.root with
  | none => .ok T
  | some y =>
    let L := T.links.setParent z y
    let L ← insertHang T key L y z
    let L := L.setChild .left z L.nil
    let L := L.setChild .right z L.nil
    let L := L.setColor z .red
    let L ← rbtreeInsertFixup fuel L z
    .ok { T with links := L }

def rbtreeUnlink (T : RbLinks) (y : Ptr) : RbLinks × Ptr :=
  let x :=
    if T.child .left y ≠ T.nil then T.child .left y
    else if T.child .right y ≠ T.nil then T.child .right y
    else T.nil
  let T := T.setParent x (T.parent y)
  (rbtreeReplace .left T y x, x)

/-- The node `rbtree_delete` takes out: `z` or, when it has two children, its
successor. -/
def deleteTarget (fuel : Nat) (T : RbLinks) (z : Ptr) : Except Stop Ptr :=
  if T.child .left z = T.nil ∨ T.child .right z = T.nil then .ok z else rbtreeSuccessor fuel T z

/-- The end of `rbtree_delete`: without a black `y` the tree needs repair. -/
def deleteRepair (fuel : Nat) (L : RbLinks) (y x : Ptr) : Except Stop RbLinks :=
  if L.color y = .black then rbtreeDeleteFixup fuel L x else .ok L

/-- `rbtree_delete` exchanges the keys, and the values, of `z` and `y`. -/
def swapField (z y : Ptr) (f : Ptr → Option CString) (q : Ptr) : Option CString :=
  if q = z then f y else if q = y then f z else f q

/-- `rbtree_delete`: the tree and the node taken out, which holds the strings
to be freed. -/
def rbtreeDelete (fuel : Nat) (T : KvsRbtree) (z : Ptr) : Except Stop (KvsRbtree × Ptr) := do
  let y ← deleteTarget fuel T.links z
  let (L, x) := rbtreeUnlink T.links y
  let T :=
    if y ≠ z then { T with key := swapField z y T.key, value := swapField z y T.value } else T
  let L ← deleteRepair fuel L y x
  .ok ({ T with links := L }, y)

-- ---------------------------------------------------------------------------
-- The operations
-- ---------------------------------------------------------------------------

def kvsRbtreeCreate : Run (Int × KvsRbtree) := do
  let blank (nil : Ptr) : KvsRbtree :=
    { links := { root := nil, nil, color := fun _ => .black, child := fun _ _ => nil,
                 parent := fun _ => nil },
      key := fun _ => none, value := fun _ => none }
  match ← kvsMalloc with
  | none => return (-1, blank 0)
  | some nil => return (0, blank nil)

/-- The loop of `kvs_rbtree_destory`: the smallest node is deleted and freed
until the tree is empty. -/
def rbtreeClear (fuel : Nat) : Nat → KvsRbtree → Run KvsRbtree
  | 0, _ => throw .fuel
  | rounds + 1, inst =>
    if inst.links.root ≠ inst.links.nil then do
      let mini ← ofExcept (rbtreeMini fuel inst.links inst.links.root)
      let (inst, removed) ← ofExcept (rbtreeDelete fuel inst mini)
      freeString (inst.key removed)
      freeString (inst.value removed)
      kvsFree removed
      rbtreeClear fuel rounds inst
    else pure inst

def kvsRbtreeDestory (inst : KvsRbtree) : Run KvsRbtree := do
  if inst.links.nil = 0 then return inst
  let fuel ← loopFuel
  let inst ← rbtreeClear fuel fuel inst
  kvsFree inst.links.nil
  return { inst with links := { inst.links with nil := 0, root := 0 } }

def KvsRbtree.setValue (T : KvsRbtree) (p : Ptr) (v : CString) : KvsRbtree :=
  { T with value := fun q => if q = p then some v else T.value q }

def KvsRbtree.fill (T : KvsRbtree) (p : Ptr) (k v : CString) : KvsRbtree :=
  { T with
    key := fun q => if q = p then some k else T.key q
    value := fun q => if q = p then some v else T.value q }

def kvsRbtreeSet (inst : KvsRbtree) (key value : Bytes) : Run (Int × KvsRbtree) := do
  let fuel ← loopFuel
  let existing ← ofExcept (rbtreeSearch inst key fuel inst.links.root)
  if existing ≠ inst.links.nil then
    match ← copyString value with
    | none => return (-2, inst)
    | some newValue =>
      freeString (inst.value existing)
      return (0, inst.setValue existing newValue)
  match ← kvsMalloc with
  | none => return (-2, inst)
  | some node =>
    match ← copyString key with
    | none =>
      kvsFree node
      return (-2, inst)
    | some kcopy =>
      match ← copyString value with
      | none =>
        kvsFree kcopy.ptr
        kvsFree node
        return (-2, inst)
      | some vcopy =>
        let inserted ← ofExcept (rbtreeInsert fuel (inst.fill node kcopy vcopy) node)
        return (0, inserted)

def kvsRbtreeGet (inst : KvsRbtree) (key : Bytes) : Run (Option Bytes) := do
  let fuel ← loopFuel
  let node ← ofExcept (rbtreeSearch inst key fuel inst.links.root)
  return (inst.value node).map CString.bytes

def kvsRbtreeDel (inst : KvsRbtree) (key : Bytes) : Run (Int × KvsRbtree) := do
  let fuel ← loopFuel
  let node ← ofExcept (rbtreeSearch inst key fuel inst.links.root)
  if node = inst.links.nil then return (1, inst)
  let (inst, cur) ← ofExcept (rbtreeDelete fuel inst node)
  freeString (inst.key cur)
  freeString (inst.value cur)
  kvsFree cur
  return (0, inst)

def kvsRbtreeMod (inst : KvsRbtree) (key value : Bytes) : Run (Int × KvsRbtree) := do
  let fuel ← loopFuel
  let node ← ofExcept (rbtreeSearch inst key fuel inst.links.root)
  if node = inst.links.nil then return (1, inst)
  match ← copyString value with
  | none => return (-2, inst)
  | some newValue =>
    freeString (inst.value node)
    return (0, inst.setValue node newValue)

def kvsRbtreeExist (inst : KvsRbtree) (key : Bytes) : Run Int := do
  let fuel ← loopFuel
  let node ← ofExcept (rbtreeSearch inst key fuel inst.links.root)
  if node = inst.links.nil then return 1 else return 0

/-- The pairs `kvs_rbtree_foreach_node` visits below a node. -/
def rbtreeVisit (T : KvsRbtree) : Nat → Ptr → Except Stop (List (Bytes × Bytes))
  | 0, _ => .error .fuel
  | fuel + 1, node =>
    if node = T.links.nil then .ok []
    else do
      let before ← rbtreeVisit T fuel (T.links.child .left node)
      let here := match T.key node, T.value node with
        | some k, some v => [(k.bytes, v.bytes)]
        | _, _ => []
      let behind ← rbtreeVisit T fuel (T.links.child .right node)
      .ok (before ++ here ++ behind)

def kvsRbtreeForeach (inst : KvsRbtree) : Run (List (Bytes × Bytes)) := do
  let fuel ← loopFuel
  ofExcept (rbtreeVisit inst fuel inst.links.root)

def rbtreeOps : EngineOps KvsRbtree where
  create := kvsRbtreeCreate
  set := kvsRbtreeSet
  get := kvsRbtreeGet
  del := kvsRbtreeDel
  mod := kvsRbtreeMod
  exist := kvsRbtreeExist
  foreach := kvsRbtreeForeach

end KvStore
