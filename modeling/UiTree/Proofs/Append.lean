import UiTree.Proofs.Tree.Preorder
import UiTree.Proofs.TreeInvariant
set_option autoImplicit false

/-!
Appending a node. It is refused just when the node would come under a text or below itself, and then
nothing has changed. Otherwise the node moves with all that is below it to the end of its new
siblings, and the only lists that change are those of its former and of its new parent.
-/

namespace UiTree

open Relation

namespace Tree

variable {t t' : Tree} {p c : NodeId}

theorem append_eq_error_iff {e : Error} : t.append p c = .error e ↔
    ((t.get p).isText = true ∨ t.contains c p = true) ∧
      e = .hierarchy (if (t.get p).isText then .intoText c p else .intoOwnSubtree c p) := by
  have hcause : ∀ cause, (Except.error (.hierarchy cause) : Except Error Tree) = .error e ↔
      e = .hierarchy cause :=
    fun cause => by rw [Except.error.injEq, eq_comm]
  unfold append
  cases (t.get p).isText with
  | true => simp [hcause]
  | false => cases t.contains c p <;> simp [hcause]

theorem children_append_of_ne (ha : t.append p c = .ok t') {n : NodeId} (hn : n ≠ p)
    (hq : t.parent c ≠ some n) : t'.children n = t.children n := by
  obtain ⟨hp, -, rfl⟩ := append_eq_ok ha
  have hlt : p < (t.detach c).size := by simpa using lt_size_of_isText_eq_false hp
  rw [children_attach _ c hlt, children_detach, if_neg hq, if_neg hn, List.append_nil]

/-- The new parent is not below the moved node, and neither is the former one. -/
theorem WellFormed.subtree_append (h : WellFormed t) (hc : c < t.size)
    (ha : t.append p c = .ok t') : t'.subtree c = t.subtree c := by
  obtain ⟨hp, hpc, -⟩ := append_eq_ok ha
  refine h.subtree_congr (Nat.le_of_eq (size_append ha).symm) hc fun x hx => ?_
  have hne : x ≠ p := by
    rintro rfl
    rw [(h.contains_iff_lists (lt_size_of_isText_eq_false hp)).2 hx] at hpc
    cases hpc
  exact NodeData.setParent_congr (SameBare.append ha x)
    (children_append_of_ne ha hne (h.not_under_of_lists hx)) none

end Tree

namespace Scene

variable {s s' : Scene} {p c : NodeId}

theorem append_of_error {e : Error} (h : s.tree.append p c = .error e) :
    s.append p c = (.error e, s) := by
  rw [append, h]

theorem fst_append_eq_error_iff {e : Error} : (s.append p c).1 = .error e ↔
    s.tree.append p c = .error e := by
  unfold append
  cases s.tree.append p c <;> simp

theorem append_eq_ok (h : s.append p c = (.ok (), s')) :
    ∃ t, s.tree.append p c = .ok t ∧ s' = { s with tree := t } := by
  unfold append at h
  cases ha : s.tree.append p c with
  | error e => simp [ha] at h
  | ok t =>
    rw [ha] at h
    exact ⟨t, rfl, (congrArg Prod.snd h).symm⟩

/-- The node `c` was moved to the end of the children of `p`, and all else is as it was. -/
structure Moved (s s' : Scene) (p c : NodeId) : Prop where
  parent : s'.tree.parent c = some p
  children : s'.tree.children p = (s.tree.children p).filter (· ≠ c) ++ [c]
  former : ∀ q, s.tree.parent c = some q → q ≠ p →
    s'.tree.children q = (s.tree.children q).filter (· ≠ c)
  -- What is below the node came with it.
  subtree : s'.tree.subtree c = s.tree.subtree c
  otherParents : ∀ n, n ≠ c → s'.tree.parent n = s.tree.parent n
  otherChildren : ∀ n, n ≠ p → s.tree.parent c ≠ some n → s'.tree.children n = s.tree.children n
  -- Kinds, attributes, listeners, methods and pending notices.
  carried : ∀ n, (s'.node n).bare = (s.node n).bare
  rest : s' = { s with tree := s'.tree }

end Scene

namespace Course

/-- Of every moment and any two nodes: an append is refused if and only if it would hang a node
under a text or under something in its own subtree. The refusal says which, and leaves the whole
scene as it was. -/
theorem Reachable.append_refused_iff {m : Moment} (hm : Reachable m) (p c : NodeId) :
    ((∃ e, (m.scene.append p c).1 = .error e) ↔
      (m.scene.node p).isText = true ∨ ReflTransGen m.scene.tree.Lists c p) ∧
    ∀ e, (m.scene.append p c).1 = .error e →
      e = .hierarchy (if (m.scene.node p).isText then .intoText c p else .intoOwnSubtree c p) ∧
        (m.scene.append p c).2 = m.scene := by
  have hdown : (m.scene.node p).isText = false →
      (m.scene.tree.contains c p = true ↔ ReflTransGen m.scene.tree.Lists c p) := fun hp =>
    hm.wellFormed.contains_iff_lists (Tree.lt_size_of_isText_eq_false hp)
  simp only [Scene.fst_append_eq_error_iff]
  refine ⟨?_, fun e he => ⟨(Tree.append_eq_error_iff.1 he).2, by rw [Scene.append_of_error he]⟩⟩
  simp only [Tree.append_eq_error_iff, exists_and_left, exists_eq, and_true]
  cases hp : (m.scene.node p).isText with
  | true => exact ⟨fun _ => .inl rfl, fun _ => .inl hp⟩
  | false =>
    rw [← hdown hp, ← hp]
    rfl

/-- A list with one item, which has a text in it, and a second list without items. -/
def twoLists : Moment :=
  let s := (((((Scene.empty .off).addNode (.element "ul")).2.addNode (.element "li")).2.addNode
    (.text "a")).2.addNode (.element "ol")).2
  ⟨((s.append 1 2).2.append 0 1).2, [.code], ⟨[], []⟩⟩

theorem reachable_twoLists : Reachable twoLists :=
  ⟨.off, .tail (.tail
    (.tail (.tail (.tail (.single (.act (.makeNode _ _))) (.act (.makeNode _ _)))
      (.act (.makeNode _ _))) (.act (.makeNode _ _))) (.act (.append _ 1 (by decide))))
      (.act (.append _ 0 (by decide)))⟩

theorem Reachable.append_refused_iff_of_twoLists : ∃ m, Reachable m ∧
    m.scene.tree.children 0 = [1] ∧ m.scene.tree.children 1 = [2] ∧ (m.scene.node 2).isText = true ∧
    (∃ e, (m.scene.append 1 0).1 = .error e) ∧ (m.scene.append 1 0).2 = m.scene ∧
    (∃ e, (m.scene.append 2 3).1 = .error e) ∧ (m.scene.append 2 3).2 = m.scene ∧
    (m.scene.append 0 2).1 = .ok () ∧ ¬ ReflTransGen m.scene.tree.Lists 2 0 := by
  have hbelow := reachable_twoLists.append_refused_iff 1 0
  have htext := reachable_twoLists.append_refused_iff 2 3
  have hfree := reachable_twoLists.append_refused_iff 0 2
  have hitem : twoLists.scene.tree.Lists 0 1 := by decide
  obtain ⟨e, he⟩ := hbelow.1.2 (.inr (.single hitem))
  obtain ⟨e', he'⟩ := htext.1.2 (.inl (by decide))
  have hok : (twoLists.scene.append 0 2).1 = .ok () := by decide
  refine ⟨twoLists, reachable_twoLists, by decide, by decide, by decide, ⟨e, he⟩, (hbelow.2 e he).2,
    ⟨e', he'⟩, (htext.2 e' he').2, hok, fun hway => ?_⟩
  obtain ⟨e'', he''⟩ := hfree.1.2 (.inr hway)
  rw [hok] at he''
  cases he''

/-- Of every moment and every append that succeeds: the node is last among its new siblings, it has
left its former ones, all that is below it came with it, and no other node was touched. -/
theorem Reachable.append_moves {m : Moment} (hm : Reachable m) {p c : NodeId}
    (hc : c < m.scene.tree.size) {s' : Scene} (ha : m.scene.append p c = (.ok (), s')) :
    m.scene.Moved s' p c := by
  obtain ⟨t, ht, rfl⟩ := Scene.append_eq_ok ha
  have hparent := Tree.parent_append ht hc
  have hchildren := hm.wellFormed.children_append ht
  refine ⟨?_, ?_, fun q _ hq => ?_, hm.wellFormed.subtree_append hc ht, fun n hn => ?_,
    fun n => Tree.children_append_of_ne ht, Tree.SameBare.append ht, rfl⟩
  · rw [hparent, if_pos rfl]
  · rw [hchildren, if_pos rfl]
  · rw [hchildren, if_neg hq, List.append_nil]
  · rw [hparent, if_neg hn]

theorem Reachable.append_moves_of_twoLists : ∃ m s', Reachable m ∧
    m.scene.append 3 1 = (.ok (), s') ∧ m.scene.tree.children 0 = [1] ∧ s'.tree.children 0 = [] ∧
    s'.tree.children 3 = [1] ∧ s'.tree.parent 1 = some 3 ∧
    s'.tree.subtree 1 = m.scene.tree.subtree 1 ∧ m.scene.tree.preorder 1 = [1, 2] := by
  have hok : twoLists.scene.append 3 1 = (.ok (), (twoLists.scene.append 3 1).2) := rfl
  have hmoved := reachable_twoLists.append_moves (by decide) hok
  refine ⟨twoLists, _, reachable_twoLists, hok, by decide, ?_, ?_, hmoved.parent,
    hmoved.subtree, by decide⟩
  · rw [hmoved.former 0 (by decide) (by decide)]
    decide
  · rw [hmoved.children]
    decide

end Course

end UiTree
