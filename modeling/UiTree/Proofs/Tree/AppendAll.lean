import Mathlib.Data.List.Dedup
import UiTree.Proofs.Tree.Rows
set_option autoImplicit false

/-!
Appending a list of nodes. The way up from the parent stays as it is while other nodes move under
the parent, so before the first of them moves it is known which of them will be refused. The nodes
before the first of those come to the end of the children, each at the place of its last occurrence.
-/

namespace UiTree.Tree

variable {t t' : Tree} {p c : NodeId}

theorem append_of_free (hp : (t.get p).isText = false) (hc : t.contains c p = false) :
    t.append p c = .ok ((t.detach c).attach p c) := by
  simp only [append, hp, hc, Bool.false_eq_true, if_false]
  rfl

theorem contains_of_root (hroot : t.parent p = none) (hc : c ≠ p) : t.contains c p = false := by
  unfold contains
  cases t.size with
  | zero => rfl
  | succ fuel => simp [meets, hroot, Ne.symm hc]

theorem meets_append (ha : t.append p c = .ok t') (hc : c < t.size) (x : NodeId) {fuel : Nat}
    {n : NodeId} (hn : t.meets c fuel n = false) : t'.meets x fuel n = t.meets x fuel n := by
  induction fuel generalizing n with
  | zero => rfl
  | succ fuel ih =>
    simp only [meets, Bool.or_eq_false_iff, beq_eq_false_iff_ne] at hn
    obtain ⟨hne, hup⟩ := hn
    have hparent : t'.parent n = t.parent n := by rw [parent_append ha hc, if_neg hne]
    simp only [meets, hparent]
    cases hq : t.parent n with
    | none => rfl
    | some q =>
      rw [hq] at hup
      simp only [ih hup]

theorem contains_append (ha : t.append p c = .ok t') (hc : c < t.size) (x : NodeId) :
    t'.contains x p = t.contains x p := by
  rw [contains, contains, size_append ha, meets_append ha hc x (append_eq_ok ha).2.1]

/-- The nodes were made before, and none of them is `p` or above it. -/
def Free (t : Tree) (p : NodeId) (cs : List NodeId) : Prop := ∀ c ∈ cs, t.contains c p = false ∧
    c < t.size

theorem Free.append {rest : List NodeId} (h : t.Free p (c :: rest)) (ha : t.append p c = .ok t') :
    t'.Free p rest := by
  intro d hd
  obtain ⟨hfree, hlt⟩ := h d (by simp [hd])
  rw [contains_append ha (h c (by simp)).2, size_append ha]
  exact ⟨hfree, hlt⟩

theorem isText_append (ha : t.append p c = .ok t') (n : NodeId) :
    (t'.get n).isText = (t.get n).isText := by
  rw [(append_eq_ok ha).2.2, isText_attach, isText_detach]

theorem appendAll_of_free (cs : List NodeId) {t : Tree} (hp : (t.get p).isText = false)
    (hc : t.Free p cs) : (t.appendAll p cs).1 = .ok () ∧
      ∀ n, (t.appendAll p cs).2.parent n = if n ∈ cs then some p else t.parent n := by
  induction cs generalizing t with
  | nil => exact ⟨rfl, fun n => rfl⟩
  | cons c rest ih =>
    obtain ⟨hfree, hlt⟩ := hc c (by simp)
    have hone := append_of_free hp hfree
    have hrest := ih (by rw [isText_append hone, hp]) (hc.append hone)
    rw [appendAll, hone]
    refine ⟨hrest.1, fun n => ?_⟩
    rw [hrest.2, parent_append hone hlt]
    by_cases hn : n = c <;> simp [hn]

/-- Moving one node and then the rest is moving them all: a node that comes again ends up where it
comes last. -/
theorem filter_move (old rest : List NodeId) (c : NodeId) :
    ((old.filter (· ≠ c) ++ [c]).filter (· ∉ rest)) ++ rest.dedup =
      old.filter (· ∉ c :: rest) ++ (c :: rest).dedup := by
  rw [List.filter_append, List.filter_filter, List.append_assoc]
  congr 1
  · refine List.filter_congr fun x _ => ?_
    by_cases hx : x = c <;> simp [hx]
  · by_cases hc : c ∈ rest
    · simp [hc]
    · simp [hc, List.dedup_cons_of_notMem]

theorem children_appendAll (cs : List NodeId) {t : Tree} (h : WellFormed t)
    (hp : (t.get p).isText = false) (hc : t.Free p cs) (n : NodeId) :
    (t.appendAll p cs).2.children n = (t.children n).filter (· ∉ cs) ++ if n =
      p then cs.dedup else [] := by
  induction cs generalizing t with
  | nil => simp [appendAll]
  | cons c rest ih =>
    obtain ⟨hfree, hlt⟩ := hc c (by simp)
    have hone := append_of_free hp hfree
    have hrest := ih (h.append hlt hone) (by rw [isText_append hone, hp]) (hc.append hone)
    rw [appendAll, hone]
    simp only
    rw [hrest, h.children_append hone n]
    split
    · exact filter_move (t.children n) rest c
    · simp only [List.append_nil, List.filter_filter]
      refine List.filter_congr fun x _ => ?_
      by_cases hx : x = c <;> simp [hx]

theorem get_appendAll (cs : List NodeId) {t : Tree} (h : WellFormed t)
    (hp : (t.get p).isText = false) (hc : t.Free p cs) (n : NodeId) :
    (t.appendAll p cs).2.get n = (t.get n).relink (if n ∈ cs then some p else t.parent n)
      ((t.children n).filter (· ∉ cs) ++ if n = p then cs.dedup else []) :=
  NodeData.eq_relink (SameBare.appendAll p cs t n) ((appendAll_of_free cs hp hc).2 n)
    (children_appendAll cs h hp hc n)

/-- At the first node that `p` does not take, the loop ends, and what was moved before it stays. -/
theorem appendAll_of_refused (before after : List NodeId) {t : Tree} (hp : (t.get p).isText = false)
    (hbefore : t.Free p before) (hc : t.contains c p = true) :
    t.appendAll p (before ++ c :: after) =
      (.error (.hierarchy (.intoOwnSubtree c p)), (t.appendAll p before).2) := by
  induction before generalizing t with
  | nil => simp [appendAll, append, hp, hc]
  | cons d rest ih =>
    obtain ⟨hfree, hlt⟩ := hbefore d (by simp)
    have hone := append_of_free hp hfree
    have hrest :=
      ih (by rw [isText_append hone, hp]) (hbefore.append hone)
        (by rw [contains_append hone hlt, hc])
    rw [List.cons_append, appendAll, appendAll, hone]
    exact hrest

theorem foldlM_append_of_appendAll (cs : List NodeId) {t : Tree}
    (h : (t.appendAll p cs).1 = .ok ()) :
    cs.foldlM (fun t c => t.append p c) t = .ok (t.appendAll p cs).2 := by
  induction cs generalizing t with
  | nil => rfl
  | cons c rest ih =>
    rw [appendAll] at h ⊢
    rw [List.foldlM_cons]
    cases ha : t.append p c with
    | error e =>
      rw [ha] at h
      cases h
    | ok t' =>
      rw [ha] at h
      exact ih h

end UiTree.Tree
