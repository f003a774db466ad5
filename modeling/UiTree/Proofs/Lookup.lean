import UiTree.Proofs.Tree.Preorder
import UiTree.Proofs.TreeInvariant
set_option autoImplicit false

/-!
Looking up a node by its id. The search goes down the tree and stops at the first hit; it is the
search of the list in document order. What a document finds is its body or a node that has the body
above it.
-/

namespace UiTree

open Relation

namespace Tree

variable {t : Tree}

def HasId (t : Tree) (id : String) (n : NodeId) : Prop := (t.get n).attributes.get? "id" = some id

instance (t : Tree) (id : String) (n : NodeId) : Decidable (t.HasId id n) :=
  inferInstanceAs (Decidable ((t.get n).attributes.get? "id" = some id))

theorem HasId.lt_size {id : String} {n : NodeId} (h : t.HasId id n) : n < t.size := by
  refine Nat.lt_of_not_le fun hn => ?_
  rw [HasId, t.get_of_size_le hn] at h
  cases h

theorem findFrom_eq_find? (t : Tree) (id : String) (fuel : Nat) (n : NodeId) :
    t.findFrom id fuel n = (t.preorderFrom fuel n).find? fun x => decide (t.HasId id x) := by
  induction fuel generalizing n with
  | zero => rfl
  | succ fuel ih =>
    have hbelow : t.findFrom id fuel = fun c => (t.preorderFrom fuel c).find? fun x =>
      decide (t.HasId id x) :=
      funext ih
    rw [findFrom, preorderFrom, List.find?_cons, List.find?_flatMap, hbelow]
    by_cases hn : (t.get n).attributes.get? "id" = some id
    · simp [HasId, hn]
    · simp [HasId, hn]

theorem findById_eq_some_iff {n x : NodeId} {id : String} : t.findById n id = some x ↔
    ∃ before after, t.preorder n = before ++ x :: after ∧ t.HasId id x ∧
      ∀ y ∈ before, ¬ t.HasId id y := by
  rw [findById, findFrom_eq_find?, List.find?_eq_some_iff_append, preorder]
  constructor
  · rintro ⟨hid, before, after, hlist, hbefore⟩
    exact ⟨before, after, hlist, by simpa using hid, by simpa using hbefore⟩
  · rintro ⟨before, after, hlist, hid, hbefore⟩
    exact ⟨by simpa using hid, before, after, hlist, by simpa using hbefore⟩

theorem lt_size_of_findById {n x : NodeId} {id : String} (h : t.findById n id = some x) :
    x < t.size := by
  obtain ⟨before, after, -, hid, -⟩ := findById_eq_some_iff.1 h
  exact hid.lt_size

namespace WellFormed

theorem findById_eq_none_iff (h : WellFormed t) {n : NodeId} {id : String} :
    t.findById n id = none ↔ ∀ x, ReflTransGen t.Lists n x → ¬ t.HasId id x := by
  rw [findById, findFrom_eq_find?, List.find?_eq_none]
  simp only [decide_eq_true_eq]
  constructor
  · intro hnone x hx hid
    exact hnone x ((h.mem_preorder_iff_of_lt hid.lt_size).2 hx) hid
  · intro hnone x hx hid
    exact hnone x ((h.mem_preorder_iff_of_lt hid.lt_size).1 hx) hid

theorem findById_eq_some (h : WellFormed t) {n x : NodeId} {id : String}
    (hx : t.findById n id = some x) : ReflTransGen t.Lists n x ∧ t.HasId id x := by
  obtain ⟨before, after, hlist, hid, -⟩ := findById_eq_some_iff.1 hx
  refine ⟨(h.mem_preorder_iff_of_lt hid.lt_size).1 ?_, hid⟩
  rw [hlist]
  simp

end WellFormed

end Tree

namespace Course

/-- Of every moment, node and id: the search at the node finds the first node with the id in the
list of what is at and below it, where every node stands before what is below it and children stand
in their order; it finds nothing if and only if no node of the subtree has the id. The search of a
document is the search at its body, and what it finds is the body or has the body above it. -/
theorem Reachable.findById_finds_first {m : Moment} (hm : Reachable m) (r : Fin m.scene.tree.size)
    (id : String) :
    let t := m.scene.tree
    (∀ n : Fin t.size, t.preorder n = n.1 :: (t.children n).flatMap t.preorder) ∧
    (∀ x, t.findById r id = some x ↔
      ∃ before after, t.preorder r = before ++ x :: after ∧ t.HasId id x ∧
      ∀ y ∈ before, ¬ t.HasId id y) ∧
    (t.findById r id = none ↔ ∀ x, ReflTransGen t.Lists r x → ¬ t.HasId id x) ∧
    ∀ doc : Document, m.scene.elementById doc id = t.findById doc.body id ∧
      ∀ x, m.scene.elementById doc id = some x → x = doc.body ∨ TransGen t.Under x doc.body := by
  have h := hm.wellFormed
  intro t
  refine ⟨fun n => h.preorder_eq n.2, fun x => Tree.findById_eq_some_iff, h.findById_eq_none_iff,
    fun doc => ⟨rfl, fun x hx => ?_⟩⟩
  have hbelow := h.reflTransGen_lists_iff.1 (h.findById_eq_some hx).1
  rcases reflTransGen_iff_eq_or_transGen.1 hbelow with heq | hup
  · exact .inl heq.symm
  · exact .inr hup

/-- A body with a division and a paragraph; the paragraph has the same id as another one inside the
division. -/
def twins : Moment :=
  let s := (((((Scene.empty .off).addNode (.element "body")).2.addNode (.element "div")).2.addNode
    (.element "p")).2.addNode (.element "p")).2
  let named := (s.modifyNode 2 (.setAttribute "id" "a")).modifyNode 3 (.setAttribute "id" "a")
  ⟨(((named.append 1 2).2.append 0 1).2.append 0 3).2, [.code], ⟨[], []⟩⟩

theorem reachable_twins : Reachable twins :=
  ⟨.off, .tail (.tail
    (.tail (.tail
      (.tail (.tail (.tail (.tail (.single (.act (.makeNode _ _))) (.act (.makeNode _ _)))
        (.act (.makeNode _ _))) (.act (.makeNode _ _))) (.act (.setAttribute _ _ _ _)))
        (.act (.setAttribute _ _ _ _)))
    (.act (.append _ 1 (by decide)))) (.act (.append _ 0 (by decide))))
    (.act (.append _ 0 (by decide)))⟩

/-- The deeper of the two paragraphs comes first and is found, and it has the body above it. -/
theorem Reachable.findById_finds_first_of_twins : ∃ (m : Moment) (doc : Document), Reachable m ∧
    m.scene.tree.preorder doc.body = [0, 1, 2, 3] ∧ m.scene.tree.HasId "a" 2 ∧
    m.scene.tree.HasId "a" 3 ∧
    m.scene.elementById doc "a" = some 2 ∧ TransGen m.scene.tree.Under 2 doc.body ∧
    m.scene.elementById doc "b" = none := by
  obtain ⟨-, hfirst, -, hdoc⟩ := reachable_twins.findById_finds_first ⟨0, by decide⟩ "a"
  obtain ⟨-, -, hnone, -⟩ := reachable_twins.findById_finds_first ⟨0, by decide⟩ "b"
  have hfound : twins.scene.elementById ⟨0⟩ "a" = some 2 :=
    (hfirst 2).2 ⟨[0, 1], [3], by decide, by decide, by decide⟩
  refine ⟨twins, ⟨0⟩, reachable_twins, by decide, by decide, by decide, hfound, ?_,
    hnone.2 fun x _ hid => ?_⟩
  · exact ((hdoc ⟨0⟩).2 2 hfound).resolve_left (by decide)
  · have hall : ∀ x < twins.scene.tree.size, ¬ twins.scene.tree.HasId "b" x := by decide
    exact hall x hid.lt_size hid

end Course

end UiTree
