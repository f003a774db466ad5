import UiTree.Proofs.Script.Sound
set_option autoImplicit false

/-!
Expressions of all sorts are sound, and what they give has been made. The proofs go along the
evaluation: one theorem for each sort, with one case for each form.
-/

namespace UiTree.Script

open Run

variable {c : Context} {w : World Memory}

abbrev HasEach (s : Scene) (vs : List Value) : Prop := ∀ v ∈ vs, s.Has v

abbrev KnowsEach (s : Scene) (es : List Element) : Prop := ∀ e ∈ es, s.Knows e

abbrev NodesIn (s : Scene) (ns : List NodeId) : Prop := ∀ n ∈ ns, n < s.tree.size

theorem NodesIn.elements {s : Scene} {ns : List NodeId} (h : NodesIn s ns) :
    KnowsEach s (ns.map .node) := by
  intro e he
  obtain ⟨n, hn, rfl⟩ := List.mem_map.1 he
  exact Scene.knows_node_iff.2 (h n hn)

theorem sound_fragment {items : List Element} (h : KnowsEach w.scene items) :
    Sound (making (·.fragment items)) c w Scene.Knows :=
  sound_making (.single (.makeSlot _)) rfl (Course.knows_new_fragment h)

theorem sound_addNode (kind : Kind) :
    Sound (making (·.addNode kind)) c w fun s n => n < s.tree.size :=
  sound_making (.single (.makeNode _ _)) rfl (w.scene.lt_size_addNode kind)

theorem sound_textNode (text : String) : Sound (making (·.textNode text)) c w Scene.Knows := by
  refine sound_making (.single (.makeNode _ _)) rfl (Scene.knows_node_iff.2 ?_)
  exact w.scene.lt_size_addNode (.text text)

theorem sound_propsNodes (keep : NodeData → Bool) : Sound (propsNodes keep) c w NodesIn :=
  .scene (sound_frame.bind fun _ _ _ hf =>
    .pure fun n hn => hf.children n (List.mem_filter.1 hn).1)

theorem pickItem_mem {items : List Value} {index : Int} {v : Value}
    (h : pickItem items index = some v) : v ∈ items := by
  unfold pickItem at h
  split at h
  · cases h
  · exact List.mem_of_getElem? h

theorem NodesIn.of_values {s : Scene} {items : List Value} {ns : List NodeId}
    (hi : HasEach s items) (h : items.mapM (·.node?) = some ns) : NodesIn s ns := by
  induction items generalizing ns with
  | nil =>
    cases h
    intro n hn
    cases hn
  | cons v rest ih =>
    simp only [List.mapM_cons, Option.bind_eq_bind, Option.pure_def, Option.bind_eq_some_iff] at h
    obtain ⟨n, hn, ns', hns, heq⟩ := h
    cases heq
    rw [HasEach, List.forall_mem_cons] at hi
    exact List.forall_mem_cons.2 ⟨hi.1.node hn, ih hi.2 hns⟩

theorem sound_refsGet (refs key : String) : Sound (evalExpr (.refsGet refs key)) c w Scene.Has := by
  rw [evalExpr]
  refine (safe_refsNamed refs).andThen fun id w₁ _ => .scene (.ready fun hr => ?_)
  cases he : (w₁.scene.refMap id).get? key with
  | none => exact .pure (Scene.has_of_elements_nil rfl)
  | some e => exact .pure (Scene.has_element_iff.2 (hr.inOrder.refs id key e he))

mutual

theorem sound_evalExpr (e : Expr) {w : World Memory} : Sound (evalExpr e) c w Scene.Has := by
  cases e with
  | null | bool | int | float | str => exact .pure (Scene.has_of_elements_nil rfl)
  | list items =>
    rw [evalExpr]
    exact (sound_evalExprs items).bind fun vs w₁ _ hvs => .pure (Scene.has_list_iff.2 hvs)
  | var name =>
    rw [evalExpr]
    exact (sound_lookup? name).bind fun o w₁ _ ho => sound_need ho
  | handler callback | method callback =>
    rw [evalExpr]
    exact (safe_closure callback).andThen fun _ _ _ => .pure (Scene.has_of_elements_nil rfl)
  | ref key refs =>
    rw [evalExpr]
    exact (safe_refsNamed refs).andThen fun _ _ _ => .pure (Scene.has_of_elements_nil rfl)
  | arg index =>
    rw [evalExpr]
    obtain ⟨_, _, _, role⟩ := c
    cases role with
    | method args =>
      refine .read (.ready fun hr => .pure ?_)
      cases ha : args[index]? with
      | none => simpa [ha] using Scene.has_of_elements_nil rfl
      | some v => simpa [ha] using hr.role v (List.mem_of_getElem? ha)
    | body | handler | gotParent => exact .throw _
  | parent =>
    rw [evalExpr]
    obtain ⟨_, _, _, role⟩ := c
    cases role with
    | gotParent parent => exact .read (.ready fun hr => .pure (Scene.has_node_iff.2 hr.role))
    | body | handler | method => exact .throw _
  | target =>
    rw [evalExpr]
    obtain ⟨_, _, _, role⟩ := c
    cases role with
    | handler e => exact .read (.ready fun hr => .pure (Scene.has_node_iff.2 hr.role.1))
    | body | method | gotParent => exact .throw _
  | current =>
    rw [evalExpr]
    obtain ⟨_, _, _, role⟩ := c
    cases role with
    | handler e => exact .read (.ready fun hr => .pure (Scene.has_node_iff.2 hr.role.2))
    | body | method | gotParent => exact .throw _
  | prop key =>
    rw [evalExpr]
    exact sound_frame.bind fun f w₁ _ hf =>
      .pure (hf.config.getD key (Scene.has_of_elements_nil rfl))
  | concat items =>
    rw [evalExpr]
    exact (sound_evalExprs items).safe.andThen fun _ _ _ => .pure (Scene.has_of_elements_nil rfl)
  | pick list index =>
    rw [evalExpr]
    refine (sound_evalExpr list).bind fun vs w₁ _ hvs => ?_
    refine (sound_evalExpr index).safe.andThen fun i w₂ hx => ?_
    exact .need fun items hitems => .need fun _ _ => sound_need fun v hv =>
      hx.has (hvs.list hitems v (pickItem_mem hv))
  | element shape =>
    rw [evalExpr]
    exact (sound_evalShape shape).bind fun _ _ _ he => .pure (Scene.has_element_iff.2 he)
  | create spec =>
    rw [evalExpr]
    exact (sound_evalSpec spec).bind fun _ _ _ he => .pure (Scene.has_element_iff.2 he)
  | nodes list =>
    rw [evalExpr]
    refine (sound_evalNodes list).bind fun ns w₁ _ hns =>
      .pure (Scene.has_list_iff.2 fun v hv => ?_)
    obtain ⟨n, hn, rfl⟩ := List.mem_map.1 hv
    exact Scene.has_node_iff.2 (hns n hn)
  | refsGet refs key => exact sound_refsGet refs key
  | invalid => exact .throw _

theorem sound_evalExprs (es : List Expr) {w : World Memory} : Sound (evalExprs es) c w HasEach := by
  cases es with
  | nil => exact .pure fun v hv => by cases hv
  | cons e rest =>
    rw [evalExprs]
    refine (sound_evalExpr e).bind fun v w₁ _ hv => ?_
    refine (sound_evalExprs rest).bind fun vs w₂ hx hvs => .pure ?_
    exact List.forall_mem_cons.2 ⟨hx.has hv, hvs⟩

theorem sound_evalShape (e : Shape) {w : World Memory} : Sound (evalShape e) c w Scene.Knows := by
  cases e with
  | text s =>
    rw [evalShape]
    exact sound_textNode s
  | number n =>
    rw [evalShape]
    exact sound_textNode _
  | fragment children =>
    rw [evalShape]
    exact (sound_evalChildren children).bind fun es w₁ _ hes => sound_fragment hes
  | wrap list =>
    rw [evalShape]
    exact (sound_evalNodes list).bind fun ns w₁ _ hns => sound_fragment (NodesIn.elements hns)
  | value e =>
    rw [evalShape]
    exact (sound_evalExpr e).bind fun v w₁ _ hv => sound_need fun e he => hv.element he

theorem sound_evalChildren (es : List Child) {w : World Memory} :
    Sound (evalChildren es) c w KnowsEach := by
  cases es with
  | nil => exact .pure fun e he => by cases he
  | cons e rest =>
    rw [evalChildren]
    refine (sound_evalChild e).bind fun items w₁ _ hitems => ?_
    refine (sound_evalChildren rest).bind fun more w₂ hx hmore => .pure fun e he => ?_
    rcases List.mem_append.1 he with he | he
    · exact hx.knows (hitems e he)
    · exact hmore e he

theorem sound_evalChild (e : Child) {w : World Memory} : Sound (evalChild e) c w KnowsEach := by
  cases e with
  | one shape =>
    rw [evalChild]
    refine (sound_evalShape shape).bind fun e w₁ _ he => .pure ?_
    exact List.forall_mem_singleton.2 he
  | each list =>
    rw [evalChild]
    exact (sound_evalNodes list).bind fun ns w₁ _ hns => .pure (NodesIn.elements hns)

theorem sound_evalNodes (l : NodeList) {w : World Memory} : Sound (evalNodes l) c w NodesIn := by
  cases l with
  | children | nonText | textOnly =>
    rw [evalNodes]
    exact sound_propsNodes _
  | list items =>
    rw [evalNodes]
    exact sound_evalEach items
  | value e =>
    rw [evalNodes]
    refine (sound_evalExpr e).bind fun v w₁ _ hv => ?_
    exact .need fun items hitems => sound_need fun ns hns => .of_values (hv.list hitems) hns

theorem sound_evalEach (es : List Expr) {w : World Memory} : Sound (evalEach es) c w NodesIn := by
  cases es with
  | nil => exact .pure fun n hn => by cases hn
  | cons e rest =>
    rw [evalEach]
    refine (sound_evalExpr e).bind fun v w₁ _ hv => .need fun n hn => ?_
    refine (sound_evalEach rest).bind fun ns w₂ hx hns => .pure ?_
    exact List.forall_mem_cons.2 ⟨Nat.lt_of_lt_of_le (hv.node hn) hx.nodes, hns⟩

theorem sound_evalConfig (e : ConfigExpr) {w : World Memory} :
    Sound (evalConfig e) c w Scene.HasAll := by
  cases e with
  | settings list =>
    rw [evalConfig]
    exact sound_evalSettings .empty list
  | saved name =>
    rw [evalConfig]
    exact sound_configNamed name
  | invalid => exact .throw _

theorem sound_evalSettings {config : Config} {w : World Memory} (h : w.scene.HasAll config)
    (l : List Setting) : Sound (evalSettings config l) c w Scene.HasAll := by
  cases l with
  | nil => exact .pure h
  | cons s rest =>
    rw [evalSettings]
    exact (sound_evalSetting h s).bind fun _ w₁ _ h₁ => sound_evalSettings h₁ rest

theorem sound_evalSetting {config : Config} {w : World Memory} (h : w.scene.HasAll config)
    (s : Setting) : Sound (evalSetting config s) c w Scene.HasAll := by
  cases s with
  | entry key value =>
    rw [evalSetting]
    exact (sound_evalExpr value).bind fun v w₁ hx hv => .pure ((hx.hasAll h).set key hv)
  | on event handler =>
    rw [evalSetting]
    exact (sound_evalExpr handler).safe.andThen fun v w₁ hx => .need fun _ _ =>
      .pure ((hx.hasAll h).set _ (Scene.has_of_elements_nil rfl))
  | withRef key refs =>
    rw [evalSetting]
    exact (safe_refsNamed refs).andThen fun _ w₁ hx =>
      .pure ((hx.hasAll h).set _ (Scene.has_of_elements_nil rfl))
  | invalid => exact .throw _

theorem sound_evalSpec (e : Spec) {w : World Memory} : Sound (evalSpec e) c w Scene.Knows := by
  cases e with
  | mk type config children engine =>
    have hrest : ∀ (type : ElementType) (w : World Memory), Sound (do
        let config ← evalConfig config
        let children ← evalChildren children
        let engine ← makerNamed engine
        let b := (← read).behaviours
        onWorld (engine.create b type config children)) c w Scene.Knows := by
      intro type w
      refine (sound_evalConfig config).bind fun config w₁ _ hconfig => ?_
      refine (sound_evalChildren children).bind fun items w₂ hx₂ hitems => ?_
      refine (safe_makerNamed engine).andThen fun engine w₃ hx₃ => ?_
      exact .read (sound_onWorld fun hr => hr.serves.follows.create engine type hr.inOrder
        ((hx₂.trans hx₃).hasAll hconfig) fun e he => hx₃.knows (hitems e he))
    unfold evalSpec
    cases type with
    | tag name => exact hrest _ w
    | component key => exact .read (hrest _ w)
    | invalid => exact .throw _

end

end UiTree.Script
