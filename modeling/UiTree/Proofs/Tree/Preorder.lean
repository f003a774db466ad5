import UiTree.Proofs.Tree.Walks
set_option autoImplicit false

/-!
The tree from the top down. Where both sides of every link agree, a way down through lists of
children is a way up through parents taken backwards, so what can be listed below a node is what has
the node above it.
-/

namespace UiTree.Tree

open Relation

def preorderFrom (t : Tree) : Nat → NodeId → List NodeId
  | 0, _ => []
  | fuel + 1, n => n :: (t.children n).flatMap (t.preorderFrom fuel)

/-- The nodes at and below a node in document order: each before those below it. -/
def preorder (t : Tree) (n : NodeId) : List NodeId := t.preorderFrom t.size n

/-- The nodes at and below a node in document order, each with all it carries but its parent. -/
def subtree (t : Tree) (n : NodeId) : List (NodeId × NodeData) :=
  (t.preorder n).map fun x => (x, (t.get x).setParent none)

theorem up_succ_eq_some_last {t : Tree} {k : Nat} {x n : NodeId} :
    t.up (k + 1) x = some n ↔ ∃ c, t.up k x = some c ∧ t.parent c = some n := by
  have hone : ∀ c, t.up 1 c = t.parent c := by
    intro c
    cases hp : t.parent c <;> simp [up, hp]
  constructor
  · intro h
    obtain ⟨c, hc, hn⟩ := up_split h
    exact ⟨c, hc, by rw [← hone, hn]⟩
  · rintro ⟨c, hc, hn⟩
    exact up_add hc (by rw [hone, hn])

namespace WellFormed

variable {t : Tree}

theorem reflTransGen_lists_iff (h : WellFormed t) {a b : NodeId} :
    ReflTransGen t.Lists a b ↔ ReflTransGen t.Under b a := by
  have hswap : t.Lists = Function.swap t.Under := by
    funext p c
    exact propext (h.mem_children_iff p c)
  rw [hswap, reflTransGen_swap]

/-- The walk of `contains` goes up, and its answer is about ways down. -/
theorem contains_iff_lists (h : WellFormed t) {a b : NodeId} (hb : b < t.size) :
    t.contains a b = true ↔ ReflTransGen t.Lists a b := by
  rw [h.contains_iff hb, h.reflTransGen_lists_iff]

theorem mem_preorderFrom_iff (h : WellFormed t) {fuel : Nat} {n x : NodeId} :
    x ∈ t.preorderFrom fuel n ↔ ∃ k < fuel, t.up k x = some n := by
  induction fuel generalizing n with
  | zero => simp [preorderFrom]
  | succ fuel ih =>
    simp only [preorderFrom, List.mem_cons, List.mem_flatMap, ih, h.mem_children_iff]
    constructor
    · rintro (rfl | ⟨c, hc, k, hk, hu⟩)
      · exact ⟨0, by omega, rfl⟩
      · exact ⟨k + 1, by omega, up_succ_eq_some_last.2 ⟨c, hu, hc⟩⟩
    · rintro ⟨k, hk, hu⟩
      cases k with
      | zero =>
        cases hu
        exact .inl rfl
      | succ k =>
        obtain ⟨c, hu, hc⟩ := up_succ_eq_some_last.1 hu
        exact .inr ⟨c, hc, k, by omega, hu⟩

/-- The table has no branch longer than itself, so the list is complete. -/
theorem mem_preorder_iff (h : WellFormed t) {n x : NodeId} (hn : n < t.size) :
    x ∈ t.preorder n ↔ ReflTransGen t.Lists n x := by
  rw [preorder, h.mem_preorderFrom_iff, h.reflTransGen_lists_iff, reflTransGen_under_iff]
  constructor
  · rintro ⟨k, -, hu⟩
    exact ⟨k, hu⟩
  · rintro ⟨k, hu⟩
    exact ⟨k, h.up_lt_size hn hu, hu⟩

theorem mem_preorder_iff_of_lt (h : WellFormed t) {n x : NodeId} (hx : x < t.size) :
    x ∈ t.preorder n ↔ ReflTransGen t.Lists n x := by
  rw [preorder, h.mem_preorderFrom_iff, h.reflTransGen_lists_iff, ← h.contains_iff hx, contains,
    meets_iff]

theorem not_under_of_lists (h : WellFormed t) {n x : NodeId} (hx : ReflTransGen t.Lists n x) :
    t.parent n ≠ some x := by
  intro hp
  obtain ⟨rank, hr⟩ := h.ranked
  exact hr.not_above_self n (.head' hp (h.reflTransGen_lists_iff.1 hx))

theorem ne_of_parent (h : WellFormed t) {p c : NodeId} (hp : t.parent c = some p) : p ≠ c := by
  rintro rfl
  exact h.not_under_of_lists .refl hp

end WellFormed

theorem preorderFrom_eq_walk (t : Tree) (fuel : Nat) (n : NodeId) :
    t.preorderFrom fuel n = walk [] (fun x _ below => x :: below.flatten) t fuel n := by
  induction fuel generalizing n with
  | zero => rfl
  | succ fuel ih => rw [preorderFrom, walk, ← List.flatMap_def, funext ih]

namespace WellFormed

variable {t t' : Tree} {n : NodeId}

theorem preorder_eq (h : WellFormed t) (hn : n < t.size) :
    t.preorder n = n :: (t.children n).flatMap t.preorder := by
  have hbelow : t.preorder = walk [] (fun x _ below => x :: below.flatten) t t.size :=
    funext fun c => by rw [preorder, preorderFrom_eq_walk]
  rw [hbelow, h.walk_eq (fun _ _ => rfl) hn, List.flatMap_def]

theorem subtree_congr (h : WellFormed t) (hsize : t.size ≤ t'.size) (hn : n < t.size)
    (hsame : SameBelow t t' n) : t'.subtree n = t.subtree n := by
  have hlist : t'.preorder n = t.preorder n := by
    rw [preorder, preorder, preorderFrom_eq_walk, preorderFrom_eq_walk,
      h.walk_size_congr (fun _ _ => rfl) hsize hn hsame]
  rw [subtree, hlist, subtree]
  refine List.map_congr_left fun x hx => ?_
  rw [hsame x ((h.mem_preorder_iff hn).1 hx)]

end WellFormed

end UiTree.Tree
