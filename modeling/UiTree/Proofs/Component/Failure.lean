import UiTree.Proofs.Component
import UiTree.Proofs.Host.Outcome
import UiTree.Proofs.Recording
set_option autoImplicit false

/-!
Component calls that fail. There are three ways, and they leave different amounts written: a
malformed ref is found before anything is made, the error of a body is handed on with all that the
body has done, and methods on a fragment are found when the ref is bound and the notice of the body
has moved. In none of them is anything collected or told.
-/

namespace UiTree

namespace Scene

/-- The scene with the ref bound to the fragment, and with the notice of the sink moved to its
slot. -/
def afterRefusal (s : Scene) (request : Option RefRequest) (cur : SinkId) (slot : SlotId)
    (items : List Element) (journal : Journal) : Scene :=
  { s with
    refs := match request with
      | some r => s.refs.modify r.refs (·.set r.key (.fragment slot items))
      | none => s.refs
    slots := s.slots.modify slot (· ++ (s.sink cur).notice.toList)
    sinks := s.sinks.modify cur fun sink => { sink with notice := none }
    journal }

theorem exists_afterRefusal (s : Scene) (name : Option String) (request : Option RefRequest)
    (cur : SinkId) (slot : SlotId) (items : List Element) :
    ∃ journal, (s.settle name request cur (.fragment slot items)).2 =
      s.afterRefusal request cur slot items journal := by
  obtain ⟨journal, heq⟩ := s.settle_fragment name request cur slot items
  refine ⟨journal, heq.trans ?_⟩
  cases request <;> rfl

theorem slot_afterRefusal (s : Scene) (request : Option RefRequest) (cur : SinkId) (slot : SlotId)
    (items : List Element) (journal : Journal) (j : SlotId) :
    s.slot j <+: (s.afterRefusal request cur slot items journal).slot j := by
  simp only [Scene.slot, afterRefusal, Array.getD_eq_getD_getElem?, Array.getElem?_modify]
  by_cases hj : slot = j
  · subst hj
    rw [if_pos rfl]
    cases s.slots[slot]? with
    | none => exact List.prefix_refl _
    | some waiting => exact List.prefix_append _ _
  · rw [if_neg hj]

end Scene

namespace Engine

variable {ω : Type} {b b' : Behaviours ω} {engine : Engine} {c : Component} {config : Config}
  {children : List Element} {w w' : World ω} {e : Error}

theorem create_eq_error_iff {type : ElementType} : engine.create b type config children w =
    (.error e, w') ↔ engine.make b type config (flatten children) w = (.error e, w') := by
  rw [create_eq]
  rcases engine.make b type config (flatten children) w with ⟨e | result, before⟩
  · rfl
  · simp

/-- Up to the delivery, a call uses the program only for the body. -/
theorem make_component_congr {nodes : List NodeId} (h : ∀ request, config.refRequest = .ok request →
      b'.render c (engine.propsIn config nodes w.scene) { w with scene := w.scene.enter c nodes } =
        b.render c (engine.propsIn config nodes w.scene)
        { w with scene := w.scene.enter c nodes }) :
    engine.make b' (.component c) config nodes w = engine.make b (.component c) config nodes w := by
  rw [make_component, make_component]
  cases hr : config.refRequest with
  | error e => rfl
  | ok request => simp only [h request hr]

/-- Once the body has returned an element, methods on a fragment are the only error. -/
theorem make_refused {request : Option RefRequest} {nodes : List NodeId} {result : Element}
    {w₁ : World ω} (hr : config.refRequest = .ok request)
    (hbody : b.render c (engine.propsIn config nodes w.scene)
      { w with scene := w.scene.enter c nodes } = (.ok result, w₁))
    (h : engine.make b (.component c) config nodes w = (.error e, w')) :
    ∃ slot items journal, result = .fragment slot items ∧
      (w₁.scene.sink w.scene.sinks.size).methods.keys ≠ [] ∧
      e = .methodsOnFragment c.name (w₁.scene.sink w.scene.sinks.size).methods.keys ∧
      w' = { w₁ with
        scene := w₁.scene.afterRefusal request w.scene.sinks.size slot items journal } := by
  rw [make_of_body hr hbody, Scene.fst_settle] at h
  split at h
  · rename_i hrefused
    cases h
    cases result with
    | node n => cases hrefused.1
    | fragment slot items =>
      obtain ⟨journal, hsettle⟩ :=
        w₁.scene.exists_afterRefusal c.name request w.scene.sinks.size slot items
      exact ⟨slot, items, journal, rfl, hrefused.2, rfl, by rw [hsettle]⟩
  · cases h

/-- Every component call that fails would end the same in any other program with this body, and with
any other body too if its ref is malformed: so it tells nothing, and in that case it runs no body.
If the ref is malformed, that is the error, and nothing has changed but the journal. If the body
fails, its error is the error of the call, and the world is as the body left it. Otherwise the body
has returned a fragment and offered methods, and to the world that it left only the binding of the
ref and the move of its own notice to the fragment are added. What waited on the children when the
body ended, or when no body ran, waits there still, in the same order. -/
theorem create_component_fails
    (h : engine.create b (.component c) config children w = (.error e, w')) :
    let props := engine.propsIn config (flatten children) w.scene
    let start := { w with scene := w.scene.enter c (flatten children) }
    let left := match config.refRequest with
      | .error _ => w
      | .ok _ => (b.render c props start).2
    (∀ b' : Behaviours ω,
      (∀ request, config.refRequest = .ok request →
        b'.render c props start = b.render c props start) →
      engine.create b' (.component c) config children w = (.error e, w')) ∧
    (match config.refRequest with
      | .error _ =>
        (∃ v, config.get? Config.refKey = some v ∧ (∀ r, v ≠ .ref r) ∧
          e = .malformedRef (.notARequest v.text)) ∧
        ∃ journal, w' = { w with scene := { w.scene with journal } }
      | .ok request =>
        match b.render c props start with
        | (.error e₁, w₁) => e = e₁ ∧ w' = w₁
        | (.ok result, w₁) => ∃ slot items journal, result = .fragment slot items ∧
            (w₁.scene.sink w.scene.sinks.size).methods.keys ≠ [] ∧
            e = .methodsOnFragment c.name (w₁.scene.sink w.scene.sinks.size).methods.keys ∧
            w' = { w₁ with
              scene := w₁.scene.afterRefusal request w.scene.sinks.size slot items journal }) ∧
    (∀ n ∈ flatten children, (w'.scene.node n).pending = (left.scene.node n).pending) ∧
    ∀ f ∈ collectFragments children, left.scene.slot f.slot <+: w'.scene.slot f.slot := by
  intro props start left
  have hmake := create_eq_error_iff.1 h
  refine ⟨fun b' hb => create_eq_error_iff.2 ((make_component_congr hb).trans hmake), ?_⟩
  cases hr : config.refRequest with
  | error malformed =>
    have hleft : left = w := by simp only [left, hr]
    rw [make_component, hr] at hmake
    cases hmake
    rw [hleft]
    exact ⟨⟨Config.refRequest_eq_error_iff.1 hr, _, rfl⟩, fun _ _ => rfl,
      fun _ _ => List.prefix_refl _⟩
  | ok request =>
    have hleft : left = (b.render c props start).2 := by simp only [left, hr]
    rw [hleft]
    rcases hbody : b.render c props start with ⟨e₁ | result, w₁⟩
    · rw [make_component, hr] at hmake
      simp only at hmake
      rw [hbody] at hmake
      cases hmake
      exact ⟨⟨rfl, rfl⟩, fun _ _ => rfl, fun _ _ => List.prefix_refl _⟩
    · obtain ⟨slot, items, journal, hresult, hkeys, he, hw⟩ := make_refused hr hbody hmake
      refine ⟨⟨slot, items, journal, hresult, hkeys, he, hw⟩, fun n _ => ?_, fun f _ => ?_⟩
      · rw [hw]
        rfl
      · rw [hw]
        exact w₁.scene.slot_afterRefusal request w.scene.sinks.size slot items journal f.slot

def offeringInVain : Behaviours Log :=
  { recording with
    render := fun _ props w =>
      let s := (w.scene.offerMethod props.cur "open" ⟨1, "f", none⟩).offerNotice props.cur ⟨2,
        "g", none⟩
      (.ok (.fragment s.addSlot.1 []), { w with scene := s.addSlot.2 }) }

def waitingText : World Log :=
  let row : NodeData := { NodeData.ofKind (.text "a") with
    pending := [⟨0, .callback ⟨0, "e", none⟩⟩] }
  ⟨⟨⟨#[row]⟩, #[], #[.empty], #[], #[], 1, ⟨.off, []⟩⟩, []⟩

def createdInVain : Except Error Element × World Log :=
  Engine.usual.create offeringInVain (.component ⟨some "Door", "door"⟩)
    (.ofList [(Config.refKey, .ref ⟨"k", 0⟩)]) [.node 0] waitingText

/-- A notice waits on the child, and a ref is asked for: the ref is bound and the notice of the body
is in the slot of the fragment, but the notice of the child has not moved. -/
theorem create_component_fails_of_methods : ∃ (w w' : World Log) (x : Notice),
    (w.scene.node 0).pending = [x] ∧
    Engine.usual.create offeringInVain (.component ⟨some "Door", "door"⟩)
    (.ofList [(Config.refKey, .ref ⟨"k", 0⟩)])
      [.node 0] w = (.error (.methodsOnFragment (some "Door") ["open"]), w') ∧
    (w'.scene.node 0).pending = [x] ∧ w'.scene.slot 0 = [⟨1, .callback ⟨2, "g", none⟩⟩] ∧
    (w'.scene.refMap 0).get? "k" = some (.fragment 0 []) ∧ w'.program = [] := by
  have hcreate : createdInVain =
      (.error (.methodsOnFragment (some "Door") ["open"]), createdInVain.2) := rfl
  obtain ⟨-, ⟨slot, items, journal, hresult, -, -, hw⟩, hpending, -⟩ :=
    create_component_fails hcreate
  cases hresult
  refine ⟨waitingText, createdInVain.2, _, rfl, hcreate, hpending 0 (List.mem_singleton.2 rfl),
    ?_, ?_, ?_⟩
  · exact congrArg (fun w : World Log => w.scene.slot 0) hw
  · exact congrArg (fun w : World Log => (w.scene.refMap 0).get? "k") hw
  · exact congrArg World.program hw

end Engine

end UiTree
