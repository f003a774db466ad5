import UiTree.Engine
set_option autoImplicit false

/-!
A create call, part by part. Each equation here says how one function of the engine is put together
from smaller ones that have names of their own, so that statements about a create call need not look
into it.
-/

namespace UiTree

def slotsOf (children : List Element) : List SlotId := (collectFragments children).map (·.slot)

theorem slotsOf_append (xs ys : List Element) : slotsOf (xs ++ ys) = slotsOf xs ++ slotsOf ys := by
  simp [slotsOf, collectFragments_append]

theorem slotsOf_cons (e : Element) (es : List Element) :
    slotsOf (e :: es) = slotsOf [e] ++ slotsOf es :=
  slotsOf_append [e] es

theorem slotsOf_fragment (slot : SlotId) (items : List Element) :
    slotsOf [.fragment slot items] = slot :: slotsOf items := by
  simp [slotsOf, collectFragments, Element.fragments]

namespace Scene

/-- What a delivery does to the scene before it tells any notice. -/
def announce (s : Scene) (result : Element) (notices : List Notice) : Scene :=
  if notices.isEmpty then s
  else match result with
    | .node parent => s.message .debug
        ("delivering " ++ toString notices.length ++ " got-parent notifications to node " ++
          parent.text)
    | .fragment _ _ => notices.foldl (·.pushNotice result) (s.message .debug
        ("deferring " ++ toString notices.length ++
          " got-parent notifications to the enclosing fragment"))

def announceTag (s : Scene) (name : String) (nodes : List NodeId) : Scene :=
  s.message .trace ("creating <" ++ name ++ "> with " ++ toString nodes.length ++ " children")

def announceCall (s : Scene) (c : Component) (nodes : List NodeId) : Scene :=
  s.message .trace ("invoking component " ++ c.shownName ++ " with " ++ toString nodes.length ++
    " children")

/-- The scene in which a component body starts. -/
def enter (s : Scene) (c : Component) (nodes : List NodeId) : Scene :=
  (s.announceCall c nodes).addSink.2.addRefs.2

/-- A new host node with its ref bound and its entries applied, before any child is appended. -/
def furnish (s : Scene) (events : EventSet) (tag : String) (config : Config)
    (request : Option RefRequest) : Scene :=
  config.entries.foldl (applyEntry events s.tree.size)
    ((s.addNode (.element tag)).2.bindIfAsked request (.node s.tree.size))

theorem eq_map_fst (made : Except Error Unit × Scene) (n : NodeId) :
    (match made with
      | (.ok _, s) => (Except.ok n, s)
      | (.error e, s) => (.error e, s)) = (made.1.map fun _ => n, made.2) := by
  obtain ⟨e | u, s⟩ := made
  · rfl
  · rfl

theorem build_eq (s : Scene) (events : EventSet) (tag : String) (config : Config)
    (nodes : List NodeId) : s.build events tag config nodes =
      match config.refRequest with
      | .error e => (.error e, (s.addNode (.element tag)).2)
      | .ok request =>
        let made := (s.furnish events tag config request).appendAll s.tree.size nodes
        (made.1.map fun _ => s.tree.size, made.2) := by
  unfold build
  simp only
  cases config.refRequest with
  | error e => rfl
  | ok request =>
    exact eq_map_fst ((s.furnish events tag config request).appendAll s.tree.size nodes) s.tree.size

theorem build_eq_ok {s s' : Scene} {events : EventSet} {tag : String} {config : Config}
    {nodes : List NodeId} {n : NodeId} (h : s.build events tag config nodes = (.ok n, s')) :
    n = s.tree.size ∧ ∃ request, config.refRequest = .ok request ∧
      (s.furnish events tag config request).appendAll s.tree.size nodes = (.ok (), s') := by
  rw [build_eq] at h
  cases hr : config.refRequest with
  | error e => simp [hr] at h
  | ok request =>
    simp only [hr] at h
    rcases hm : (s.furnish events tag config request).appendAll s.tree.size nodes with ⟨e | u, s''⟩
    · rw [hm] at h
      cases h
    · rw [hm] at h
      cases h
      exact ⟨rfl, request, rfl, hm⟩

theorem settle_eq_ok {s s' : Scene} {name : Option String} {request : Option RefRequest}
    {cur : SinkId} {result e : Element} (h : s.settle name request cur result = (.ok e, s')) :
    e = result := by
  unfold settle attachMethods at h
  simp only at h
  split at h
  · cases h
    rfl
  · cases result with
    | fragment slot items => cases h
    | node n =>
      cases h
      rfl

end Scene

namespace Engine

variable {ω : Type}

theorem deliver_node (b : Behaviours ω) (p : NodeId) (notices : List Notice) (w : World ω) :
    Engine.deliver b (.node p) notices w =
      notices.foldl (b.tell p) { w with scene := w.scene.announce (.node p) notices } := by
  cases notices <;> rfl

theorem deliver_fragment (b : Behaviours ω) (slot : SlotId) (items : List Element)
    (notices : List Notice) (w : World ω) :
    Engine.deliver b (.fragment slot items) notices w =
      { w with scene := w.scene.announce (.fragment slot items) notices } := by
  cases notices <;> rfl

theorem create_tag (b : Behaviours ω) (engine : Engine) (name : String) (config : Config)
    (children : List Element) (w : World ω) :
    engine.create b (.tag name) config children w =
      match (w.scene.announceTag name (flatten children)).build engine.events name config
        (flatten children) with
      | (.error e, s) => (.error e, { w with scene := s })
      | (.ok n, s) =>
        let got := s.collect (.node n) (flatten children) (slotsOf children)
        (.ok (.node n), deliver b (.node n) got.1 { w with scene := got.2 }) := by
  unfold create make Scene.announceTag slotsOf
  simp only
  generalize Scene.build _ _ _ _ _ = built
  obtain ⟨e | n, s⟩ := built
  · rfl
  · rfl

theorem make_tag (b : Behaviours ω) (engine : Engine) (name : String) (config : Config)
    (nodes : List NodeId) (w : World ω) :
    engine.make b (.tag name) config nodes w =
      match (w.scene.announceTag name nodes).build engine.events name config nodes with
      | (.ok n, s) => (.ok (.node n), { w with scene := s })
      | (.error e, s) => (.error e, { w with scene := s }) := rfl

theorem make_tag_eq_ok {b : Behaviours ω} {engine : Engine} {name : String} {config : Config}
    {nodes : List NodeId} {w w' : World ω} {result : Element}
    (h : engine.make b (.tag name) config nodes w = (.ok result, w')) :
    ∃ n s, (w.scene.announceTag name nodes).build engine.events name config nodes = (.ok n, s) ∧
      result = .node n ∧ w' = { w with scene := s } := by
  rw [make_tag] at h
  rcases hb : (w.scene.announceTag name nodes).build engine.events name config nodes with ⟨e | n, s⟩
  · rw [hb] at h
    cases h
  · rw [hb] at h
    cases h
    exact ⟨n, s, rfl, rfl, rfl⟩

def propsIn (engine : Engine) (config : Config) (nodes : List NodeId) (s : Scene) : Props :=
  ⟨config, nodes, s.refs.size, s.sinks.size, engine⟩

theorem create_component (b : Behaviours ω) (engine : Engine) (c : Component) (config : Config)
    (children : List Element) (w : World ω) :
    engine.create b (.component c) config children w =
      match config.refRequest with
      | .error e => (.error e, { w with scene := w.scene.announceCall c (flatten children) })
      | .ok request =>
        match b.render c (engine.propsIn config (flatten children) w.scene)
          { w with scene := w.scene.enter c (flatten children) } with
        | (.error e, w') => (.error e, w')
        | (.ok result, w') =>
          match w'.scene.settle c.name request w.scene.sinks.size result with
          | (.error e, s) => (.error e, { w' with scene := s })
          | (.ok result, s) =>
            let got := s.collect result (flatten children) (slotsOf children)
            (.ok result, deliver b result got.1 { w' with scene := got.2 }) := by
  unfold create make call
  cases config.refRequest with
  | error e => rfl
  | ok request =>
    simp only
    change (match (match b.render c (engine.propsIn config (flatten children) w.scene)
        { w with scene := w.scene.enter c (flatten children) } with
      | (.error e, w') => (Except.error e, w')
      | (.ok result, w') =>
        ((w'.scene.settle c.name request w.scene.sinks.size result).1,
          { w' with scene := (w'.scene.settle c.name request w.scene.sinks.size result).2 })) with
      | (.error e, w') => (Except.error e, w')
      | (.ok result, w') =>
        (.ok result, deliver b result
          (w'.scene.collect result (flatten children) (slotsOf children)).1
          { w' with scene :=
              (w'.scene.collect result (flatten children) (slotsOf children)).2 })) = _
    obtain ⟨e | result, w'⟩ := b.render c (engine.propsIn config (flatten children) w.scene)
      { w with scene := w.scene.enter c (flatten children) }
    · rfl
    · simp only
      obtain ⟨e | result', s⟩ := w'.scene.settle c.name request w.scene.sinks.size result
      · rfl
      · rfl

theorem make_component (b : Behaviours ω) (engine : Engine) (c : Component) (config : Config)
    (nodes : List NodeId) (w : World ω) :
    engine.make b (.component c) config nodes w =
      match config.refRequest with
      | .error e => (.error e, { w with scene := w.scene.announceCall c nodes })
      | .ok request =>
        match b.render c (engine.propsIn config nodes w.scene)
            { w with scene := w.scene.enter c nodes } with
        | (.error e, w') => (.error e, w')
        | (.ok result, w') =>
          let settled := w'.scene.settle c.name request w.scene.sinks.size result
          (settled.1, { w' with scene := settled.2 }) := by
  unfold make call
  cases config.refRequest with
  | error e => rfl
  | ok request => rfl

theorem make_component_eq_ok {b : Behaviours ω} {engine : Engine} {c : Component} {config : Config}
    {nodes : List NodeId} {w w' : World ω} {result : Element}
    (h : engine.make b (.component c) config nodes w = (.ok result, w')) :
    ∃ request w₁ s, config.refRequest = .ok request ∧
      b.render c (engine.propsIn config nodes w.scene) { w with scene := w.scene.enter c nodes } =
        (.ok result, w₁) ∧
      w₁.scene.settle c.name request w.scene.sinks.size result = (.ok result, s) ∧
      w' = { w₁ with scene := s } := by
  rw [make_component] at h
  cases hr : config.refRequest with
  | error e =>
    rw [hr] at h
    cases h
  | ok request =>
    simp only [hr] at h
    rcases hbody : b.render c (engine.propsIn config nodes w.scene)
        { w with scene := w.scene.enter c nodes } with
      ⟨e | returned, w₁⟩
    · rw [hbody] at h
      cases h
    · rw [hbody] at h
      simp only at h
      rcases hset : w₁.scene.settle c.name request w.scene.sinks.size returned with ⟨e | settled, s⟩
      · rw [hset] at h
        cases h
      · rw [hset] at h
        cases h
        cases Scene.settle_eq_ok hset
        exact ⟨request, w₁, s, rfl, rfl, hset, rfl⟩

/-- A create call is a delivery after the element was made. -/
theorem create_eq (b : Behaviours ω) (engine : Engine) (type : ElementType) (config : Config)
    (children : List Element) (w : World ω) :
    engine.create b type config children w =
      match engine.make b type config (flatten children) w with
      | (.error e, w') => (.error e, w')
      | (.ok result, w') =>
        let got := w'.scene.collect result (flatten children) (slotsOf children)
        (.ok result, deliver b result got.1 { w' with scene := got.2 }) := rfl

end Engine

end UiTree
