import UiTree.Value
set_option autoImplicit false

/-!
The tree of host nodes, kept as a table. A node lists its children and names its parent; `append`,
`detach` and `setTextContent` are the only operations that write either side, and each writes both.

Walks down the tree go as deep as their fuel allows, and the table has no branch longer than itself.
A node is kept as long as something refers to it: from outside the tree, or as a child or a listener
of a node that is kept. A parent link keeps nothing, and nodes that refer to one another in a circle
keep one another.
-/

namespace UiTree

inductive Kind where
  | element (tag : String)
  | text (content : String)
  deriving DecidableEq, Repr

structure NodeData where
  kind : Kind
  attributes : Dict String
  listeners : Listeners
  methods : Dict Closure
  children : List NodeId
  parent : Option NodeId
  pending : List Notice

namespace NodeData

def ofKind (kind : Kind) : NodeData := ⟨kind, .empty, .empty, .empty, [], none, []⟩

def absent : NodeData := ofKind (.text "")

def isText (d : NodeData) : Bool :=
  match d.kind with
  | .text _ => true
  | .element _ => false

def tag? (d : NodeData) : Option String :=
  match d.kind with
  | .element tag => some tag
  | .text _ => none

def setParent (parent : Option NodeId) (d : NodeData) : NodeData := { d with parent }

def setChildren (children : List NodeId) (d : NodeData) : NodeData := { d with children }

def pushChild (child : NodeId) (d : NodeData) : NodeData :=
  { d with children := d.children ++ [child] }

def dropChild (child : NodeId) (d : NodeData) : NodeData :=
  { d with children := d.children.filter (· ≠ child) }

def setAttribute (name value : String) (d : NodeData) : NodeData :=
  { d with attributes := d.attributes.set name value }

def removeAttribute (name : String) (d : NodeData) : NodeData :=
  { d with attributes := d.attributes.erase name }

def listen (event : String) (listener : Value) (d : NodeData) : NodeData :=
  { d with listeners := d.listeners.add event listener }

def setMethod (name : String) (method : Closure) (d : NodeData) : NodeData :=
  { d with methods := d.methods.set name method }

def setPending (pending : List Notice) (d : NodeData) : NodeData := { d with pending }

def pushNotice (notice : Notice) (d : NodeData) : NodeData :=
  { d with pending := d.pending ++ [notice] }

end NodeData

structure Tree where
  nodes : Array NodeData

namespace Tree

def empty : Tree := ⟨#[]⟩

def size (t : Tree) : Nat := t.nodes.size

def get (t : Tree) (n : NodeId) : NodeData := t.nodes.getD n .absent

def modify (t : Tree) (n : NodeId) (f : NodeData → NodeData) : Tree := ⟨t.nodes.modify n f⟩

def add (t : Tree) (kind : Kind) : NodeId × Tree := (t.size, ⟨t.nodes.push (.ofKind kind)⟩)

def parent (t : Tree) (n : NodeId) : Option NodeId := (t.get n).parent

def children (t : Tree) (n : NodeId) : List NodeId := (t.get n).children

/-- Whether `a` is met on the way up from a node, looking at no more than `fuel` nodes. -/
def meets (t : Tree) (a : NodeId) : Nat → NodeId → Bool
  | 0, _ => false
  | fuel + 1, n => n == a ||
    match t.parent n with
    | some p => t.meets a fuel p
    | none => false

/-- Whether `b` lies in the subtree of `a`, itself included. No way up is longer than the table. -/
def contains (t : Tree) (a b : NodeId) : Bool := t.meets a t.size b

def detach (t : Tree) (c : NodeId) : Tree :=
  let t := match t.parent c with
    | some p => t.modify p (.dropChild c)
    | none => t
  t.modify c (.setParent none)

/-- Moves `child` to the end of the children of `parent`, or refuses and changes nothing. -/
def append (t : Tree) (parent child : NodeId) : Except Error Tree :=
  if (t.get parent).isText then .error (.hierarchy (.intoText child parent))
  else if t.contains child parent then .error (.hierarchy (.intoOwnSubtree child parent))
  else .ok (((t.detach child).modify child (.setParent (some parent))).modify parent
    (.pushChild child))

/-- Appends in turn. What was appended before a refusal stays. -/
def appendAll (t : Tree) (parent : NodeId) : List NodeId → Except Error Unit × Tree
  | [] => (.ok (), t)
  | child :: rest => match t.append parent child with
    | .ok t => t.appendAll parent rest
    | .error e => (.error e, t)

def clear (t : Tree) (n : NodeId) : Tree :=
  (t.children n).foldl (fun t c => t.modify c (.setParent none)) (t.modify n (.setChildren []))

/-- A text node takes the text; an element gets a new text node for its only child, or none for no
text. -/
def setTextContent (t : Tree) (n : NodeId) (text : String) : Tree :=
  match (t.get n).kind with
  | .text _ => t.modify n fun d => { d with kind := .text text }
  | .element _ =>
    let t := t.clear n
    if text.isEmpty then t
    else
      let (leaf, t) := t.add (.text text)
      (t.modify leaf (.setParent (some n))).modify n (.pushChild leaf)

@[simp] theorem size_modify (t : Tree) (n : NodeId) (f : NodeData → NodeData) :
    (t.modify n f).size = t.size := by
  simp [modify, size]

theorem get_modify (t : Tree) (n m : NodeId) (f : NodeData → NodeData) :
    (t.modify n f).get m = if m = n ∧ m < t.size then f (t.get m) else t.get m := by
  simp only [get, modify, size, Array.getD_eq_getD_getElem?, Array.getElem?_modify]
  by_cases h : n = m
  · subst h
    by_cases hn : n < t.nodes.size <;> simp [hn]
  · simp [h, Ne.symm h]

theorem get_modify_self (t : Tree) {n : NodeId} (f : NodeData → NodeData) (h : n < t.size) :
    (t.modify n f).get n = f (t.get n) := by
  simp [get_modify, h]

theorem get_modify_of_ne (t : Tree) {n m : NodeId} (f : NodeData → NodeData) (h : m ≠ n) :
    (t.modify n f).get m = t.get m := by
  simp [get_modify, h]

@[simp] theorem size_add (t : Tree) (kind : Kind) : (t.add kind).2.size = t.size + 1 := by
  simp [add, size]

theorem get_add_self (t : Tree) (kind : Kind) :
    (t.add kind).2.get (t.add kind).1 = .ofKind kind := by
  simp [add, get, size, Array.getD_eq_getD_getElem?]

theorem get_add_of_lt (t : Tree) (kind : Kind) {n : NodeId} (h : n < t.size) :
    (t.add kind).2.get n = t.get n := by
  have hn : n ≠ t.nodes.size := Nat.ne_of_lt h
  simp [add, get, Array.getD_eq_getD_getElem?, Array.getElem?_push, hn]

theorem get_of_size_le (t : Tree) {n : NodeId} (h : t.size ≤ n) : t.get n = .absent := by
  have hn : ¬ n < t.nodes.size := Nat.not_lt.2 h
  simp [get, Array.getD_eq_getD_getElem?, hn]

def textFrom (t : Tree) : Nat → NodeId → List Char
  | 0, _ => []
  | fuel + 1, n => match (t.get n).kind with
    | .text content => content.toList
    | .element _ => (t.children n).flatMap (t.textFrom fuel)

def textContent (t : Tree) (n : NodeId) : String := String.ofList (t.textFrom t.size n)

def attributeMarkup (a : String × String) : List Char :=
  ' ' :: a.1.toList ++ '=' :: '"' :: Text.escapeAttribute a.2.toList ++ ['"']

def markupFrom (t : Tree) : Nat → NodeId → List Char
  | 0, _ => []
  | fuel + 1, n => match (t.get n).kind with
    | .text content => Text.escapeText content.toList
    | .element tag =>
      '<' :: tag.toList ++ (t.get n).attributes.entries.flatMap attributeMarkup ++ '>' ::
        ((t.children n).flatMap (t.markupFrom fuel) ++ '<' :: '/' :: tag.toList ++ ['>'])

def markup (t : Tree) (n : NodeId) : String := String.ofList (t.markupFrom t.size n)

def findFrom (t : Tree) (id : String) : Nat → NodeId → Option NodeId
  | 0, _ => none
  | fuel + 1, n =>
    if (t.get n).attributes.get? "id" = some id then some n
    else (t.children n).findSome? (t.findFrom id fuel)

def findById (t : Tree) (n : NodeId) (id : String) : Option NodeId := t.findFrom id t.size n

/-- The nodes that a node refers to: its children and the nodes among its listeners. -/
def holds (t : Tree) (n : NodeId) : List NodeId :=
  t.children n ++ nodesOf (t.get n).listeners.values

def refer (counts : Array Nat) (ns : List NodeId) : Array Nat :=
  ns.foldl (fun counts n => counts.modify n (· + 1)) counts

def references (t : Tree) (roots : List NodeId) : Array Nat :=
  (List.range t.size).foldl (fun counts n => refer counts (t.holds n))
    (refer (Array.replicate t.size 0) roots)

def unrefer (state : Array Nat × List NodeId) (n : NodeId) : Array Nat × List NodeId :=
  let left := state.1.getD n 0 - 1
  (state.1.setIfInBounds n left, if left = 0 then n :: state.2 else state.2)

/-- Gives up the nodes on the list and all that lose their last reference by it. Every node is given
up once, so the size of the table is fuel enough. -/
def release (t : Tree) : Nat → List NodeId → Array Nat → Array Nat
  | fuel + 1, n :: rest, counts =>
    let (counts, rest) := (t.holds n).foldl unrefer (counts, rest)
    t.release fuel rest counts
  | _, _, counts => counts

def kept (t : Tree) (roots : List NodeId) : Array Bool :=
  let counts := t.references roots
  let idle := (List.range t.size).filter fun n => counts.getD n 0 == 0
  (t.release t.size idle counts).map (· != 0)

/-- Cuts every link from and to a node that is not kept. -/
def prune (t : Tree) (kept : Array Bool) : Tree :=
  let alive := fun n => kept.getD n false
  ⟨t.nodes.mapIdx fun n d =>
    if alive n then { d with parent := d.parent.filter alive, children := d.children.filter alive }
    else { d with parent := none, children := [], listeners := .empty }⟩

end Tree

end UiTree
