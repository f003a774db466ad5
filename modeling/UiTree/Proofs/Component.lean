import UiTree.Proofs.Notices.Move
import UiTree.Proofs.Notices.OwnNode
set_option autoImplicit false

/-!
A component call whose body has returned an element. All that is left to decide is whether the
methods that the body offered can go to the element; the scene is the one the body left, settled. A
delivery then takes notices from nodes and touches nothing else that a node carries.
-/

namespace UiTree

theorem Element.node?_eq_some_iff {e : Element} {n : NodeId} : e.node? = some n ↔ e = .node n := by
  cases e <;> simp [Element.node?]

namespace Scene

theorem size_sinks_enter (s : Scene) (c : Component) (nodes : List NodeId) :
    s.sinks.size < (s.enter c nodes).sinks.size := by
  simp [enter, announceCall, message, addSink, addRefs]

theorem node_takeFromNodes (nodes : List NodeId) (s : Scene) (m : NodeId) :
    ∃ waiting, (s.takeFromNodes nodes).2.node m = (s.node m).setPending waiting := by
  induction nodes generalizing s with
  | nil => exact ⟨(s.node m).pending, rfl⟩
  | cons n rest ih =>
    obtain ⟨waiting, hrest⟩ := ih (s.modifyNode n (.setPending []))
    refine ⟨waiting, hrest.trans ?_⟩
    change ((s.tree.modify n (.setPending [])).get m).setPending waiting = _
    rw [Tree.get_modify]
    split <;> rfl

theorem node_drained (s : Scene) (result : Element) (children : List Element) (m : NodeId) :
    ∃ waiting, (s.drained result children).node m = (s.node m).setPending waiting := by
  obtain ⟨waiting, htaken⟩ :=
    s.node_takeFromNodes ((flatten children).filter fun n => result.node? ≠ some n) m
  refine ⟨waiting, ?_⟩
  rw [node, drained, tree_announce, ← htaken]
  exact congrArg (fun t : Tree => t.get m) (tree_takeFromSlots _ _)

end Scene

namespace Engine

variable {ω : Type} {b : Behaviours ω} {engine : Engine} {c : Component} {config : Config}
  {request : Option RefRequest} {w w₁ : World ω} {result : Element}

theorem make_of_body (hr : config.refRequest = .ok request) {nodes : List NodeId}
    (hbody : b.render c (engine.propsIn config nodes w.scene)
      { w with scene := w.scene.enter c nodes } = (.ok result, w₁)) :
    engine.make b (.component c) config nodes w =
      ((w₁.scene.settle c.name request w.scene.sinks.size result).1,
        { w₁ with scene := (w₁.scene.settle c.name request w.scene.sinks.size result).2 }) := by
  rw [make_component, hr]
  simp only [hbody]

theorem create_of_body (hr : config.refRequest = .ok request) {children : List Element}
    (hbody : b.render c (engine.propsIn config (flatten children) w.scene)
      { w with scene := w.scene.enter c (flatten children) } = (.ok result, w₁)) :
    let offered := (w₁.scene.sink w.scene.sinks.size).methods
    let before := (engine.make b (.component c) config (flatten children) w).2
    engine.create b (.component c) config children w =
      if result.isFragment = true ∧ offered.keys ≠ []
        then (.error (.methodsOnFragment c.name offered.keys), before)
        else (.ok result,
        (before.scene.tellings result children).foldl (fun w t => b.tell t.2 w t.1)
          { before with scene := before.scene.drained result children }) := by
  intro offered before
  have hmade := make_of_body hr hbody
  rw [w₁.scene.fst_settle c.name request w.scene.sinks.size result] at hmade
  rw [create_eq_tellings]
  by_cases hrefused : result.isFragment = true ∧ offered.keys ≠ []
  · rw [if_pos hrefused] at hmade ⊢
    simp only [before, hmade]
    rfl
  · rw [if_neg hrefused] at hmade ⊢
    simp only [before, hmade]

end Engine

end UiTree
