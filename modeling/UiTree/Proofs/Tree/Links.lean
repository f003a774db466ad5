import UiTree.Tree
set_option autoImplicit false

/-!
The links of a tree, one node at a time: what each operation does to parents, to lists of children,
and to the question whether a node is a text. Nothing here needs the two sides of a link to agree.
-/

namespace UiTree.Tree

/-- Two tables with the same links: only what else the nodes carry may differ. -/
structure SameLinks (t t' : Tree) : Prop where
  size : t'.size = t.size
  parent : ∀ n, t'.parent n = t.parent n
  children : ∀ n, t'.children n = t.children n
  isText : ∀ n, (t'.get n).isText = (t.get n).isText

namespace SameLinks

theorem refl (t : Tree) : SameLinks t t := ⟨rfl, fun _ => rfl, fun _ => rfl, fun _ => rfl⟩

theorem trans {t t' t'' : Tree} (h : SameLinks t t') (h' : SameLinks t' t'') : SameLinks t t'' where
  size := h'.size.trans h.size
  parent n := (h'.parent n).trans (h.parent n)
  children n := (h'.children n).trans (h.children n)
  isText n := (h'.isText n).trans (h.isText n)

theorem modify {t : Tree} {n : NodeId} {f : NodeData → NodeData}
    (hp : (f (t.get n)).parent = (t.get n).parent)
    (hc : (f (t.get n)).children = (t.get n).children)
    (ht : (f (t.get n)).isText = (t.get n).isText) :
    SameLinks t (t.modify n f) := by
  have key (m : NodeId) : (t.modify n f).get m = t.get m ∨ m = n ∧
      (t.modify n f).get m = f (t.get n) := by
    rw [get_modify]
    split
    · rename_i h
      exact .inr ⟨h.1, by rw [h.1]⟩
    · exact .inl rfl
  refine ⟨size_modify t n f, fun m => ?_, fun m => ?_, fun m => ?_⟩
  · rcases key m with h | ⟨rfl, h⟩
    · simp [Tree.parent, h]
    · simp [Tree.parent, h, hp]
  · rcases key m with h | ⟨rfl, h⟩
    · simp [Tree.children, h]
    · simp [Tree.children, h, hc]
  · rcases key m with h | ⟨rfl, h⟩
    · simp [h]
    · simp [h, ht]

end SameLinks

theorem parent_of_size_le {t : Tree} {n : NodeId} (h : t.size ≤ n) : t.parent n = none := by
  simp [parent, t.get_of_size_le h, NodeData.absent, NodeData.ofKind]

theorem children_of_size_le {t : Tree} {n : NodeId} (h : t.size ≤ n) : t.children n = [] := by
  simp [children, t.get_of_size_le h, NodeData.absent, NodeData.ofKind]

theorem isText_of_size_le {t : Tree} {n : NodeId} (h : t.size ≤ n) : (t.get n).isText = true := by
  simp [t.get_of_size_le h, NodeData.absent, NodeData.ofKind, NodeData.isText]

theorem lt_size_of_mem_children {t : Tree} {p c : NodeId} (h : c ∈ t.children p) : p < t.size := by
  apply Nat.lt_of_not_le
  intro hp
  rw [children_of_size_le hp] at h
  cases h

theorem get_add (t : Tree) (kind : Kind) (n : NodeId) :
    (t.add kind).2.get n = if n = t.size then .ofKind kind else t.get n := by
  by_cases hn : n = t.size
  · subst hn
    simpa [add] using t.get_add_self kind
  · rw [if_neg hn]
    rcases Nat.lt_or_gt_of_ne hn with h | h
    · exact t.get_add_of_lt kind h
    · rw [t.get_of_size_le (Nat.le_of_lt h), get_of_size_le _ (by rw [size_add]; exact h)]

theorem parent_add (t : Tree) (kind : Kind) (n : NodeId) :
    (t.add kind).2.parent n = t.parent n := by
  rw [parent, get_add]
  split
  · rename_i h
    rw [parent_of_size_le (Nat.le_of_eq h.symm)]
    rfl
  · rfl

theorem children_add (t : Tree) (kind : Kind) (n : NodeId) :
    (t.add kind).2.children n = t.children n := by
  rw [children, get_add]
  split
  · rename_i h
    rw [children_of_size_le (Nat.le_of_eq h.symm)]
    rfl
  · rfl

theorem parent_setParent (t : Tree) {c : NodeId} (p : Option NodeId) (hc : c < t.size)
    (n : NodeId) : (t.modify c (.setParent p)).parent n = if n = c then p else t.parent n := by
  by_cases h : n = c
  · subst h
    simp [parent, get_modify_self t _ hc, NodeData.setParent]
  · simp [parent, get_modify_of_ne t _ h, h]

/-- No bound is needed here: a node that was never made has no parent to lose. -/
theorem parent_setParent_none (t : Tree) (c n : NodeId) :
    (t.modify c (.setParent none)).parent n = if n = c then none else t.parent n := by
  by_cases hc : c < t.size
  · exact parent_setParent t none hc n
  · have hn : ¬ (n = c ∧ n < t.size) := fun h => hc (h.1 ▸ h.2)
    rw [parent, get_modify, if_neg hn]
    split
    · rename_i h
      rw [h]
      exact parent_of_size_le (Nat.le_of_not_lt hc)
    · rfl

@[simp] theorem children_setParent (t : Tree) (c : NodeId) (p : Option NodeId) (n : NodeId) :
    (t.modify c (.setParent p)).children n = t.children n := by
  rw [children, get_modify]
  split <;> rfl

@[simp] theorem isText_setParent (t : Tree) (c : NodeId) (p : Option NodeId) (n : NodeId) :
    ((t.modify c (.setParent p)).get n).isText = (t.get n).isText := by
  rw [get_modify]
  split <;> rfl

theorem children_modify_of_lt (t : Tree) {m : NodeId} (f : NodeData → NodeData) (hm : m < t.size)
    (n : NodeId) :
    (t.modify m f).children n = if n = m then (f (t.get m)).children else t.children n := by
  by_cases h : n = m
  · subst h
    simp [children, get_modify_self t _ hm]
  · simp [children, get_modify_of_ne t _ h, h]

@[simp] theorem parent_dropChild (t : Tree) (m c n : NodeId) :
    (t.modify m (.dropChild c)).parent n = t.parent n := by
  rw [parent, get_modify]
  split <;> rfl

@[simp] theorem isText_dropChild (t : Tree) (m c n : NodeId) :
    ((t.modify m (.dropChild c)).get n).isText = (t.get n).isText := by
  rw [get_modify]
  split <;> rfl

@[simp] theorem parent_pushChild (t : Tree) (m c n : NodeId) :
    (t.modify m (.pushChild c)).parent n = t.parent n := by
  rw [parent, get_modify]
  split <;> rfl

@[simp] theorem isText_pushChild (t : Tree) (m c n : NodeId) :
    ((t.modify m (.pushChild c)).get n).isText = (t.get n).isText := by
  rw [get_modify]
  split <;> rfl

@[simp] theorem size_detach (t : Tree) (c : NodeId) : (t.detach c).size = t.size := by
  unfold detach
  cases t.parent c <;> simp

theorem parent_detach (t : Tree) (c n : NodeId) :
    (t.detach c).parent n = if n = c then none else t.parent n := by
  unfold detach
  cases t.parent c with
  | none => exact parent_setParent_none t c n
  | some p => simp [parent_setParent_none]

theorem children_detach (t : Tree) (c n : NodeId) :
    (t.detach c).children n =
      if t.parent c = some n then (t.children n).filter (· ≠ c) else t.children n := by
  unfold detach
  cases hp : t.parent c with
  | none => simp
  | some p =>
    rw [children_setParent]
    by_cases hs : p < t.size
    · rw [children_modify_of_lt t _ hs]
      by_cases hn : n = p
      · subst hn
        simp [NodeData.dropChild, children]
      · simp [hn, Ne.symm hn]
    · have hm : (t.modify p (.dropChild c)).children n = t.children n := by
        have hn : ¬ (n = p ∧ n < t.size) := fun h => hs (h.1 ▸ h.2)
        rw [children, get_modify, if_neg hn, children]
      rw [hm]
      split
      · rename_i h
        cases h
        rw [children_of_size_le (Nat.le_of_not_lt hs)]
        rfl
      · rfl

@[simp] theorem isText_detach (t : Tree) (c n : NodeId) :
    ((t.detach c).get n).isText = (t.get n).isText := by
  unfold detach
  cases t.parent c <;> simp

/-- Hangs `c` under `p`: what an append does once it has taken `c` out of its place. -/
def attach (t : Tree) (p c : NodeId) : Tree :=
  (t.modify c (.setParent (some p))).modify p (.pushChild c)

@[simp] theorem size_attach (t : Tree) (p c : NodeId) : (t.attach p c).size = t.size := by
  simp [attach]

theorem parent_attach (t : Tree) (p : NodeId) {c : NodeId} (hc : c < t.size) (n : NodeId) :
    (t.attach p c).parent n = if n = c then some p else t.parent n := by
  rw [attach, parent_pushChild, parent_setParent t _ hc]

theorem children_attach (t : Tree) {p : NodeId} (c : NodeId) (hp : p < t.size) (n : NodeId) :
    (t.attach p c).children n = t.children n ++ if n = p then [c] else [] := by
  rw [attach, children_modify_of_lt _ _ (by simpa using hp)]
  by_cases hn : n = p
  · subst hn
    simp only [if_pos, NodeData.pushChild]
    rw [← children, children_setParent]
  · simp [hn]

@[simp] theorem isText_attach (t : Tree) (p c n : NodeId) :
    ((t.attach p c).get n).isText = (t.get n).isText := by
  simp [attach]

theorem lt_size_of_isText_eq_false {t : Tree} {n : NodeId} (h : (t.get n).isText = false) :
    n < t.size := by
  apply Nat.lt_of_not_le
  intro hn
  rw [isText_of_size_le hn] at h
  cases h

theorem append_eq_ok {t t' : Tree} {p c : NodeId} (h : t.append p c = .ok t') :
    (t.get p).isText = false ∧ t.contains c p = false ∧ t' = (t.detach c).attach p c := by
  unfold append at h
  split at h
  · cases h
  · rename_i hp
    split at h
    · cases h
    · rename_i hc
      cases h
      exact ⟨by simpa using hp, by simpa using hc, rfl⟩

theorem size_append {t t' : Tree} {p c : NodeId} (h : t.append p c = .ok t') :
    t'.size = t.size := by
  rw [(append_eq_ok h).2.2]
  simp

theorem parent_append {t t' : Tree} {p c : NodeId} (h : t.append p c = .ok t') (hc : c < t.size)
    (n : NodeId) : t'.parent n = if n = c then some p else t.parent n := by
  rw [(append_eq_ok h).2.2, parent_attach _ _ (by simpa using hc), parent_detach]
  split <;> rfl

theorem cutAll_links (cs : List NodeId) (t : Tree) :
    let t' := cs.foldl (fun t c => t.modify c (.setParent none)) t
    t'.size = t.size ∧ (∀ n, t'.parent n = if n ∈ cs then none else t.parent n) ∧
      (∀ n, t'.children n = t.children n) ∧ ∀ n, (t'.get n).isText = (t.get n).isText := by
  induction cs generalizing t with
  | nil => simp
  | cons c rest ih =>
    obtain ⟨hs, hp, hc, ht⟩ := ih (t.modify c (.setParent none))
    refine ⟨?_, fun n => ?_, fun n => ?_, fun n => ?_⟩
    · rw [List.foldl_cons, hs, size_modify]
    · rw [List.foldl_cons, hp, parent_setParent_none]
      by_cases hn : n = c
      · simp [hn]
      · simp [hn]
    · rw [List.foldl_cons, hc, children_setParent]
    · rw [List.foldl_cons, ht, isText_setParent]

@[simp] theorem size_clear (t : Tree) (n : NodeId) : (t.clear n).size = t.size := by
  rw [clear, (cutAll_links _ _).1, size_modify]

theorem parent_clear (t : Tree) (n m : NodeId) :
    (t.clear n).parent m = if m ∈ t.children n then none else t.parent m := by
  have hm : (t.modify n (.setChildren [])).parent m = t.parent m := by
    rw [parent, get_modify]
    split <;> rfl
  rw [clear, (cutAll_links _ _).2.1, hm]

theorem children_clear (t : Tree) (n m : NodeId) :
    (t.clear n).children m = if m = n then [] else t.children m := by
  rw [clear, (cutAll_links _ _).2.2.1, children, get_modify]
  by_cases hm : m = n
  · subst hm
    rw [if_pos rfl]
    split
    · rfl
    · rename_i h
      exact children_of_size_le (Nat.le_of_not_lt fun hlt => h ⟨rfl, hlt⟩)
  · simp [hm, children]

@[simp] theorem isText_clear (t : Tree) (n m : NodeId) :
    ((t.clear n).get m).isText = (t.get m).isText := by
  rw [clear, (cutAll_links _ _).2.2.2, get_modify]
  split <;> rfl

@[simp] theorem size_prune (t : Tree) (kept : Array Bool) : (t.prune kept).size = t.size := by
  simp [prune, size]

/-- A node that stays loses its links to nodes that go; a node that goes loses all. -/
theorem prune_links (t : Tree) (kept : Array Bool) (n : NodeId) :
    (t.prune kept).parent n =
      (if kept.getD n false then (t.parent n).filter (kept.getD · false) else none) ∧
      (t.prune kept).children n =
        (if kept.getD n false then (t.children n).filter (kept.getD · false) else []) ∧
      ((t.prune kept).get n).isText = (t.get n).isText := by
  by_cases hn : n < t.size
  · have hget : (t.prune kept).get n =
        if kept.getD n false then
          { t.get n with
            parent := (t.parent n).filter (kept.getD · false)
            children := (t.children n).filter (kept.getD · false) }
        else { t.get n with parent := none, children := [], listeners := .empty } := by
      have hn' : n < t.nodes.size := hn
      simp [prune, get, parent, children, Array.getD_eq_getD_getElem?, hn']
    refine ⟨?_, ?_, ?_⟩
    · rw [parent, hget]
      split <;> rfl
    · rw [children, hget]
      split <;> rfl
    · rw [hget]
      split <;> rfl
  · have hn := Nat.le_of_not_lt hn
    have hn' : (t.prune kept).size ≤ n := by rw [size_prune]; exact hn
    rw [parent_of_size_le hn', children_of_size_le hn', isText_of_size_le hn', parent_of_size_le hn,
      children_of_size_le hn, isText_of_size_le hn]
    simp

end UiTree.Tree
