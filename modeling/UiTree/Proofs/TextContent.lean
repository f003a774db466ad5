import UiTree.Proofs.Append
import UiTree.Proofs.Scene.Growth
set_option autoImplicit false

/-!
Setting the text of a node. A text node takes the text. An element gives up its children and gets
one new leaf, or none for an empty text; the former children keep all that is below them and have no
parent. Whatever does not have the node at or below it reads as before.
-/

namespace UiTree

open Relation

namespace Tree

variable {t : Tree} {n : NodeId}

def leafFor (t : Tree) (text : String) : List NodeId := if text.isEmpty then [] else [t.size]

theorem setTextContent_of_element {tag : String} (hk : (t.get n).kind = .element tag)
    (text : String) : t.setTextContent n text =
      if text.isEmpty then t.clear n else ((t.clear n).add (.text text)).2.attach n t.size := by
  rw [setTextContent, hk, ← size_clear t n]
  rfl

theorem setTextContent_of_text {content : String} (hk : (t.get n).kind = .text content)
    (text : String) : t.setTextContent n text = t.modify n fun d =>
      { d with kind := .text text } := by
  rw [setTextContent, hk]

theorem size_setTextContent_of_element {tag : String} (hk : (t.get n).kind = .element tag)
    (text : String) : (t.setTextContent n text).size = t.size + (t.leafFor text).length := by
  rw [setTextContent_of_element hk, leafFor]
  split <;> simp

theorem get_setTextContent_of_element {tag : String} (hk : (t.get n).kind = .element tag)
    (text : String) {m : NodeId} (hm : m < t.size) :
    (t.setTextContent n text).get m =
      (t.get m).relink (if m ∈ t.children n then none else t.parent m)
        (if m = n then t.leafFor text else t.children m) := by
  have hn : n < t.size := lt_size_of_element hk
  have hold : m ≠ (t.clear n).size := by
    rw [size_clear]
    exact Nat.ne_of_lt hm
  rw [setTextContent_of_element hk, leafFor]
  cases text.isEmpty with
  | true =>
    exact NodeData.eq_relink (SameBare.clear t n m) (parent_clear t n m) (children_clear t n m)
  | false =>
    have hleaf : t.size < ((t.clear n).add (.text text)).2.size := by simp
    have hnode : n < ((t.clear n).add (.text text)).2.size := Nat.lt_trans hn hleaf
    refine NodeData.eq_relink ?_ ?_ ?_
    · rw [if_neg Bool.false_ne_true, SameBare.attach _ n t.size m, get_add, if_neg hold,
        SameBare.clear t n m]
    · rw [if_neg Bool.false_ne_true]
      change (attach _ n t.size).parent m = _
      rw [parent_attach _ n hleaf, if_neg (Nat.ne_of_lt hm), parent_add, parent_clear]
    · rw [if_neg Bool.false_ne_true]
      change (attach _ n t.size).children m = _
      rw [children_attach _ t.size hnode, children_add, children_clear]
      by_cases hmn : m = n <;> simp [hmn]

theorem get_setTextContent_leaf {tag : String} (hk : (t.get n).kind = .element tag) {text : String}
    (ht : text.isEmpty = false) :
    (t.setTextContent n text).get t.size = (NodeData.ofKind (.text text)).setParent (some n) := by
  have hn : n < t.size := lt_size_of_element hk
  have hnew : ((t.clear n).add (.text text)).2.get t.size = .ofKind (.text text) := by
    rw [get_add, if_pos (size_clear t n).symm]
  rw [setTextContent_of_element hk, ht, if_neg Bool.false_ne_true, attach,
    get_modify_of_ne _ _ (Nat.ne_of_gt hn), get_modify_self _ _ (by simp), hnew]

namespace WellFormed

theorem get_setTextContent_of_ne (h : WellFormed t) (text : String) {m : NodeId} (hm : m < t.size)
    (hne : m ≠ n) :
    (t.setTextContent n text).get m =
      (t.get m).setParent (if m ∈ t.children n then none else t.parent m) := by
  cases hk : (t.get n).kind with
  | element tag =>
    rw [get_setTextContent_of_element hk text hm, if_neg hne]
    rfl
  | text content =>
    have hleaf : t.children n = [] := h.children_of_isText n (by simp [NodeData.isText, hk])
    rw [setTextContent_of_text hk, get_modify_of_ne _ _ hne, hleaf, if_neg List.not_mem_nil]
    rfl

theorem get_setTextContent_self (h : WellFormed t) (text : String) (hn : n < t.size) :
    (t.setTextContent n text).get n =
      { t.get n with
        kind := ((t.setTextContent n text).get n).kind
        children := (t.setTextContent n text).children n } := by
  cases hk : (t.get n).kind with
  | element tag =>
    have hown : n ∉ t.children n := fun hc => h.ne_of_parent ((h.mem_children_iff n n).1 hc) rfl
    rw [children, get_setTextContent_of_element hk text hn, if_neg hown]
    rfl
  | text content =>
    rw [children, setTextContent_of_text hk, get_modify_self _ _ hn]

theorem lt_size_of_lists (h : WellFormed t) {m x : NodeId} (hm : m < t.size)
    (hx : ReflTransGen t.Lists m x) : x < t.size := by
  rcases ReflTransGen.cases_tail hx with rfl | ⟨p, -, hc⟩
  · exact hm
  · exact h.child_lt_size hc

/-- What does not have the node at or below it stays as it is, a former child with all its own among
it. -/
theorem sameBelow_setTextContent (h : WellFormed t) (text : String) {m : NodeId} (hm : m < t.size)
    (hout : ¬ ReflTransGen t.Lists m n) : SameBelow t (t.setTextContent n text) m := by
  intro x hx
  have hne : x ≠ n := by
    rintro rfl
    exact hout hx
  rw [h.get_setTextContent_of_ne text (h.lt_size_of_lists hm hx) hne]
  rfl

theorem textContent_setTextContent (h : WellFormed t) (text : String) (hn : n < t.size) :
    (t.setTextContent n text).textContent n = text := by
  have h' := h.setTextContent n text
  cases hk : (t.get n).kind with
  | text content =>
    have hkind : ((t.setTextContent n text).get n).kind = .text text := by
      rw [setTextContent_of_text hk, get_modify_self _ _ hn]
    exact h'.textContent_text (Nat.lt_of_lt_of_le hn (t.size_le_setTextContent n text)) hkind
  | element tag =>
    have hrow := get_setTextContent_of_element hk text hn
    rw [if_pos rfl] at hrow
    have hkind : ((t.setTextContent n text).get n).kind = .element tag := by rw [hrow, ← hk]; rfl
    have hchildren : (t.setTextContent n text).children n = t.leafFor text := by
      rw [children, hrow]; rfl
    rw [h'.textContent_element hkind, hchildren, leafFor]
    cases ht : text.isEmpty with
    | true =>
      rw [String.isEmpty_iff.1 ht]
      rfl
    | false =>
      have hleaf : (t.setTextContent n text).textContent t.size = text := by
        refine h'.textContent_text ?_ (by rw [get_setTextContent_leaf hk ht]; rfl)
        rw [size_setTextContent_of_element hk, leafFor, ht]
        simp
      simp [hleaf]

end WellFormed

end Tree

namespace Scene

/-- The text of the node was set. -/
structure TextSet (s s' : Scene) (n : NodeId) (text : String) : Prop where
  read : s'.tree.textContent n = text
  -- An element is left with a new leaf that holds the text, or without children if there is no text
  -- to hold.
  element : ∀ tag, (s.node n).kind = .element tag → (s'.node n).kind = .element tag ∧
    (text = "" → s'.tree.children n = [] ∧ s'.tree.size = s.tree.size) ∧
    (text ≠ "" → s'.tree.children n = [s.tree.size] ∧ s'.tree.size = s.tree.size + 1 ∧
      s'.node s.tree.size = (NodeData.ofKind (.text text)).setParent (some n))
  former : ∀ c ∈ s.tree.children n, s'.tree.parent c = none ∧ s'.tree.subtree c = s.tree.subtree c
  -- Attributes, listeners, methods, pending notices and the parent are the same.
  own : s'.node n = { s.node n with kind := (s'.node n).kind, children := s'.tree.children n }
  place : s'.tree.parent n = s.tree.parent n ∧ ∀ p, s.tree.parent n = some p →
    s'.tree.children p = s.tree.children p
  others : ∀ m < s.tree.size, m ≠ n → m ∉ s.tree.children n → s'.node m = s.node m
  -- Text and markup of all that the node is not in.
  reads : ∀ m < s.tree.size, s.tree.contains m n = false →
    s'.tree.textContent m = s.tree.textContent m ∧ s'.tree.markup m = s.tree.markup m
  rest : s' = { s with tree := s'.tree }

end Scene

namespace Course

/-- Of every moment, node and text: the node reads as the text that was set, its former children are
roots of the trees that they were, and nothing else in the scene reads otherwise, unless it has the
node below it. -/
theorem Reachable.setTextContent_sets {m : Moment} (hm : Reachable m) {n : NodeId}
    (hn : n < m.scene.tree.size) (text : String) :
    m.scene.TextSet (m.scene.setTextContent n text) n text := by
  have h := hm.wellFormed
  have hsize := m.scene.tree.size_le_setTextContent n text
  have hown := h.get_setTextContent_self text hn
  have hplace := congrArg NodeData.parent hown
  refine ⟨h.textContent_setTextContent text hn, fun tag hk => ?_, fun c hc => ?_, hown,
    ⟨hplace, fun p hp => ?_⟩, fun x hx hne hc => ?_, fun x hx hout => ?_, rfl⟩
  · have hrow := Tree.get_setTextContent_of_element hk text hn
    rw [if_pos rfl] at hrow
    have hchildren := congrArg NodeData.children hrow
    have hnodes := Tree.size_setTextContent_of_element hk text
    refine ⟨(congrArg NodeData.kind hrow).trans hk, fun ht => ?_, fun ht => ?_⟩
    · rw [Tree.leafFor, String.isEmpty_iff.2 ht] at hchildren hnodes
      exact ⟨hchildren, hnodes⟩
    · have hfull : text.isEmpty = false :=
        Bool.eq_false_iff.2 fun he => ht (String.isEmpty_iff.1 he)
      rw [Tree.leafFor, hfull] at hchildren hnodes
      exact ⟨hchildren, hnodes, Tree.get_setTextContent_leaf hk hfull⟩
  · have hparent := (h.mem_children_iff n c).1 hc
    have hlt := h.child_lt_size hc
    have hrow := h.get_setTextContent_of_ne text hlt (h.ne_of_parent hparent).symm
    rw [if_pos hc] at hrow
    have hout : ¬ ReflTransGen m.scene.tree.Lists c n :=
      fun hway => h.not_under_of_lists hway hparent
    exact ⟨congrArg NodeData.parent hrow,
      h.subtree_congr hsize hlt (h.sameBelow_setTextContent text hlt hout)⟩
  · have hrow := h.get_setTextContent_of_ne text (h.parent_lt_size hp) (h.ne_of_parent hp)
    have hsiblings := congrArg NodeData.children hrow
    exact hsiblings
  · have hrow := h.get_setTextContent_of_ne text hx hne
    rw [if_neg hc] at hrow
    exact hrow
  · have hout' : ¬ ReflTransGen m.scene.tree.Lists x n := fun hway => by
      rw [(h.contains_iff_lists hn).2 hway] at hout
      cases hout
    have hsame := h.sameBelow_setTextContent text hx hout'
    exact ⟨h.textContent_congr hsize hx hsame, h.markup_congr hsize hx hsame⟩

/-- The list is given a text of its own. Its item is a root now, still with its text in it, and
reads as before. -/
theorem Reachable.setTextContent_sets_of_twoLists : ∃ m, Reachable m ∧
    let s := m.scene
    let s' := s.setTextContent 0 "b"
    s.tree.children 0 = [1] ∧ s.tree.textContent 0 = "a" ∧ s.tree.preorder 1 = [1, 2] ∧
    s'.tree.textContent 0 = "b" ∧ s'.tree.children 0 = [4] ∧ s'.tree.parent 1 = none ∧
    s'.tree.subtree 1 = s.tree.subtree 1 ∧ s'.tree.markup 1 = s.tree.markup 1 := by
  have hset := reachable_twoLists.setTextContent_sets (n := 0) (by decide) "b"
  obtain ⟨hroot, hbelow⟩ := hset.former 1 (by decide)
  obtain ⟨-, -, hleaf⟩ := hset.element "ul" rfl
  refine ⟨twoLists, reachable_twoLists, by decide, by decide, by decide, hset.read,
    (hleaf (by decide)).1.trans ?_, hroot, hbelow, (hset.reads 1 (by decide) (by decide)).2⟩
  decide

end Course

end UiTree
