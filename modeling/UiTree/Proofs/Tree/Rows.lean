import UiTree.Proofs.Tree.WellFormed
set_option autoImplicit false

/-!
Whole rows of the tree. Detaching and appending write links and nothing else, so a row afterwards is
the row before with another parent and other children.
-/

namespace UiTree

namespace NodeData

def relink (parent : Option NodeId) (children : List NodeId) (d : NodeData) : NodeData :=
  { d with parent, children }

/-- What a node carries besides its links. -/
def bare (d : NodeData) : NodeData := d.relink none []

theorem eq_relink {d d' : NodeData} {parent : Option NodeId} {children : List NodeId}
    (hb : d'.bare = d.bare) (hp : d'.parent = parent) (hc : d'.children = children) :
    d' = d.relink parent children := by
  calc d' = d'.bare.relink d'.parent d'.children := rfl
    _ = d.bare.relink parent children := by rw [hb, hp, hc]

theorem setParent_congr {d d' : NodeData} (hb : d'.bare = d.bare) (hc : d'.children = d.children)
    (parent : Option NodeId) : d'.setParent parent = d.setParent parent :=
  eq_relink hb rfl hc

end NodeData

namespace Tree

theorem modify_eq_self {t : Tree} {n : NodeId} {f : NodeData → NodeData}
    (h : f (t.get n) = t.get n) : t.modify n f = t := by
  have hnodes : t.nodes.modify n f = t.nodes := by
    refine Array.ext (by simp) fun i _ hi => ?_
    rw [Array.getElem_modify]
    split
    · rename_i hn
      subst hn
      simpa [get, Array.getD_eq_getD_getElem?, hi] using h
    · rfl
  rw [modify, hnodes]

theorem modify_modify (t : Tree) (n : NodeId) (f g : NodeData → NodeData) :
    (t.modify n f).modify n g = t.modify n fun d => g (f d) := by
  refine congrArg Tree.mk (Array.ext (by simp [modify]) fun i _ _ => ?_)
  simp only [modify, Array.getElem_modify]
  split <;> rfl

def SameBare (t t' : Tree) : Prop := ∀ n, (t'.get n).bare = (t.get n).bare

namespace SameBare

theorem refl (t : Tree) : SameBare t t := fun _ => rfl

theorem trans {t t' t'' : Tree} (h : SameBare t t') (h' : SameBare t' t'') : SameBare t t'' :=
  fun n => (h' n).trans (h n)

theorem modify (t : Tree) (n : NodeId) (f : NodeData → NodeData) (hf : ∀ d, (f d).bare = d.bare) :
    SameBare t (t.modify n f) := by
  intro m
  rw [get_modify]
  split
  · exact hf _
  · rfl

theorem detach (t : Tree) (c : NodeId) : SameBare t (t.detach c) := by
  unfold Tree.detach
  cases t.parent c with
  | none => exact modify t c _ fun _ => rfl
  | some p => exact (modify t p (.dropChild c) fun _ => rfl).trans (modify _ c _ fun _ => rfl)

theorem attach (t : Tree) (p c : NodeId) : SameBare t (t.attach p c) :=
  (modify t c (.setParent (some p)) fun _ => rfl).trans (modify _ p (.pushChild c) fun _ => rfl)

theorem append {t t' : Tree} {p c : NodeId} (h : t.append p c = .ok t') : SameBare t t' := by
  rw [(append_eq_ok h).2.2]
  exact (detach t c).trans (attach _ p c)

theorem appendAll (p : NodeId) (cs : List NodeId) (t : Tree) : SameBare t (t.appendAll p cs).2 := by
  induction cs generalizing t with
  | nil => exact refl t
  | cons c rest ih =>
    rw [Tree.appendAll]
    cases ha : t.append p c with
    | error e => exact refl t
    | ok t' => exact (append ha).trans (ih t')

theorem clear (t : Tree) (n : NodeId) : SameBare t (t.clear n) := by
  have hcut : ∀ (cs : List NodeId) (t : Tree),
      SameBare t (cs.foldl (fun t c => t.modify c (.setParent none)) t) := by
    intro cs
    induction cs with
    | nil => exact refl
    | cons c rest ih => exact fun t => (modify t c (.setParent none) fun _ => rfl).trans (ih _)
  exact (modify t n (.setChildren []) fun _ => rfl).trans (hcut _ _)

end SameBare

theorem WellFormed.children_append {t t' : Tree} (h : WellFormed t) {p c : NodeId}
    (ha : t.append p c = .ok t') (n : NodeId) : t'.children n = (t.children n).filter (· ≠ c) ++
      if n = p then [c] else [] := by
  obtain ⟨hp, -, rfl⟩ := append_eq_ok ha
  have hlt : p < (t.detach c).size := by simpa using lt_size_of_isText_eq_false hp
  rw [children_attach _ c hlt, h.children_detach]

end Tree

end UiTree
