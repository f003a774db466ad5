set_option autoImplicit false

/-!
Elements: what stands for children. A fragment is a list of elements with a slot for the notices
that wait for its parent; its copies share the slot, so the slot is what makes two fragments the
same.
-/

namespace UiTree

/-- Nodes are numbered from zero in order of creation. -/
abbrev NodeId := Nat

abbrev SlotId := Nat

/-- The number of a node in texts, which count from one. -/
def NodeId.number (n : NodeId) : Nat := n + 1

theorem NodeId.number_ne {m n : NodeId} (h : m ≠ n) : m.number ≠ n.number :=
  fun hnumber => h (Nat.succ.inj hnumber)

def NodeId.text (n : NodeId) : String := toString n.number

inductive Element where
  | node (id : NodeId)
  | fragment (slot : SlotId) (items : List Element)
  deriving Repr, Inhabited

structure Fragment where
  slot : SlotId
  items : List Element
  deriving Repr

def Fragment.toElement (f : Fragment) : Element := .fragment f.slot f.items

mutual

def Element.nodes : Element → List NodeId
  | .node n => [n]
  | .fragment _ items => flatten items

def flatten : List Element → List NodeId
  | [] => []
  | e :: rest => e.nodes ++ flatten rest

end

mutual

/-- The fragments of an element, each before those inside it. -/
def Element.fragments : Element → List Fragment
  | .node _ => []
  | .fragment slot items => ⟨slot, items⟩ :: collectFragments items

def collectFragments : List Element → List Fragment
  | [] => []
  | e :: rest => e.fragments ++ collectFragments rest

end

mutual

/-- The same node, or a fragment with the same slot and the same items. -/
def Element.same : Element → Element → Bool
  | .node m, .node n => m == n
  | .fragment s xs, .fragment t ys => s == t && sameItems xs ys
  | _, _ => false

def sameItems : List Element → List Element → Bool
  | [], [] => true
  | x :: xs, y :: ys => x.same y && sameItems xs ys
  | _, _ => false

end

namespace Element

def node? : Element → Option NodeId
  | .node n => some n
  | .fragment _ _ => none

def fragment? : Element → Option Fragment
  | .node _ => none
  | .fragment slot items => some ⟨slot, items⟩

def isFragment (e : Element) : Bool := e.fragment?.isSome

end Element

theorem flatten_append (xs ys : List Element) : flatten (xs ++ ys) = flatten xs ++ flatten ys := by
  induction xs with
  | nil => rfl
  | cons e rest ih => simp [flatten, ih]

theorem flatten_nodes (nodes : List NodeId) : flatten (nodes.map .node) = nodes := by
  induction nodes with
  | nil => rfl
  | cons n rest ih => simp [flatten, Element.nodes, ih]

theorem mem_flatten {es : List Element} {n : NodeId} : n ∈ flatten es ↔ ∃ e ∈ es, n ∈ e.nodes := by
  induction es with
  | nil => simp [flatten]
  | cons e rest ih => simp [flatten, ih]

theorem mem_collectFragments {es : List Element} {f : Fragment} :
    f ∈ collectFragments es ↔ ∃ e ∈ es, f ∈ e.fragments := by
  induction es with
  | nil => simp [collectFragments]
  | cons e rest ih => simp [collectFragments, ih]

theorem collectFragments_append (xs ys : List Element) :
    collectFragments (xs ++ ys) = collectFragments xs ++ collectFragments ys := by
  induction xs with
  | nil => rfl
  | cons e rest ih => simp [collectFragments, ih]

def Fragment.nodes (f : Fragment) : List NodeId := flatten f.items

def Fragment.push (f : Fragment) (e : Element) : Fragment := { f with items := f.items ++ [e] }

end UiTree
