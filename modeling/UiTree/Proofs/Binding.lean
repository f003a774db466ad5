import UiTree.Proofs.Component
import UiTree.Proofs.Host.Entries
import UiTree.Proofs.Recording
import UiTree.Proofs.Scene.Refs
set_option autoImplicit false

/-!
Binding refs. A create call whose config asks for a ref writes the element that it returns under the
one key in the one map, over whatever stands there: a host element when it has a number, a component
when the body has returned. All else in the maps is as it was then. The entry that asks for it
leaves no trace on any node.
-/

namespace UiTree

namespace NodeData

theorem foldl_withEntry_drop (events : EventSet) (entries : List (String × Value)) (d : NodeData) :
    (Entries.drop Config.refKey entries).foldl (withEntry events) d =
      entries.foldl (withEntry events) d := by
  induction entries generalizing d with
  | nil => rfl
  | cons entry rest ih =>
    obtain ⟨key, v⟩ := entry
    by_cases hkey : key = Config.refKey
    · simp [Entries.drop, withEntry, hkey]
    · simp only [Entries.drop, if_neg hkey, List.foldl_cons, ih]

end NodeData

namespace Scene

theorem refMap_enter (s : Scene) (c : Component) (nodes : List NodeId) (id : RefsId) :
    (s.enter c nodes).refMap id = s.refMap id :=
  (Course.Act.makeRefs (s.announceCall c nodes).addSink.2).refMap_eq id

theorem refMap_drained (s : Scene) (result : Element) (children : List Element) (id : RefsId) :
    (s.drained result children).refMap id = s.refMap id := by
  rw [refMap, drained, refs_announce, refs_collect, refMap]

theorem node_settle (s : Scene) (name : Option String) (request : Option RefRequest) (cur : SinkId)
    (result : Element) (n : NodeId) :
    ∃ pending methods, (s.settle name request cur result).2.node n =
      { s.node n with pending, methods } := by
  cases result with
  | fragment slot items =>
    obtain ⟨journal, heq⟩ := s.settle_fragment name request cur slot items
    rw [heq]
    exact ⟨(s.node n).pending, (s.node n).methods, rfl⟩
  | node p =>
    obtain ⟨journal, heq⟩ := s.settle_node name request cur p
    have hrow : (s.settle name request cur (.node p)).2.node n =
        if n = p ∧ n < s.tree.size then (s.node n).takeOver (s.sink cur) else s.node n := by
      rw [heq]
      exact s.tree.get_modify p n _
    rw [hrow]
    split
    · exact ⟨_, _, rfl⟩
    · exact ⟨(s.node n).pending, (s.node n).methods, rfl⟩

theorem tree_build_erase (s : Scene) (events : EventSet) (tag : String) {config : Config}
    {request : Option RefRequest} (hr : config.refRequest = .ok request) (nodes : List NodeId) :
    (s.build events tag (config.erase Config.refKey) nodes).2.tree =
      (s.build events tag config nodes).2.tree := by
  have hnone : Config.refRequest (config.erase Config.refKey) = .ok none := by
    simp [Config.refRequest, Dict.get?_erase_self]
  have htree : (s.furnish events tag (config.erase Config.refKey) none).tree =
      (s.furnish events tag config request).tree := by
    rw [furnish_eq, furnish_eq]
    simp only [modifyNode, tree_bindIfAsked, Dict.erase, NodeData.foldl_withEntry_drop]
  rw [build_eq, build_eq, hr, hnone]
  simp only [appendAll, htree]

end Scene

namespace Engine

variable {ω : Type}

/-- The scene in which the element of a create call is there: before the call for a host element, at
the end of its body for a component. -/
def produced (b : Behaviours ω) (engine : Engine) (type : ElementType) (config : Config)
    (nodes : List NodeId) (w : World ω) : Scene :=
  match type with
  | .tag _ => w.scene
  | .component c =>
    (b.render c (engine.propsIn config nodes w.scene)
      { w with scene := w.scene.enter c nodes }).2.scene

variable {b : Behaviours ω} {engine : Engine} {type : ElementType} {config : Config}
  {nodes : List NodeId} {w w' before : World ω} {result : Element}

theorem create_eq_ok {children : List Element}
    (h : engine.create b type config children w = (.ok result, w')) :
    let before := (engine.make b type config (flatten children) w).2
    engine.make b type config (flatten children) w = (.ok result, before) ∧
      w' = (before.scene.tellings result children).foldl (fun w t => b.tell t.2 w t.1)
        { before with scene := before.scene.drained result children } := by
  rw [create_eq_tellings] at h
  rcases hmade : engine.make b type config (flatten children) w with ⟨e | made, before⟩
  · rw [hmade] at h
    cases h
  · rw [hmade] at h
    cases h
    exact ⟨rfl, rfl⟩

theorem scene_make_tag (b : Behaviours ω) (engine : Engine) (name : String) (config : Config)
    (nodes : List NodeId) (w : World ω) : (engine.make b (.tag name) config nodes w).2.scene =
      ((w.scene.announceTag name nodes).build engine.events name config nodes).2 := by
  rw [make_tag]
  rcases (w.scene.announceTag name nodes).build engine.events name config nodes
    with ⟨e | n, s⟩ <;> rfl

/-- To the maps of refs a call only adds the binding that it was asked for. -/
theorem refs_make {request : Option RefRequest} (hr : config.refRequest = .ok request)
    (h : engine.make b type config nodes w = (.ok result, before)) :
    before.scene.refs =
      ((engine.produced b type config nodes w).bindIfAsked request result).refs := by
  cases type with
  | tag name =>
    obtain ⟨n, s, hbuild, rfl, rfl⟩ := make_tag_eq_ok h
    obtain ⟨rfl, request', hr', happend⟩ := Scene.build_eq_ok hbuild
    cases hr.symm.trans hr'
    have hrefs :=
      (Scene.furnish_rest (w.scene.announceTag name nodes) engine.events name config request).1
    have hs : s.refs =
        ((w.scene.announceTag name nodes).furnish engine.events name config request).refs :=
      (congrArg (fun made => made.2.refs) happend).symm
    rw [hs, hrefs]
    cases request <;> rfl
  | component c =>
    obtain ⟨request', w₁, s, hr', hbody, hsettle, rfl⟩ := make_component_eq_ok h
    cases hr.symm.trans hr'
    have hrefs := w₁.scene.refs_settle c.name request w.scene.sinks.size result
    rw [hsettle] at hrefs
    rw [produced, hbody]
    exact hrefs

/-- Of every create call that succeeds and whose config asks for a ref, in the world `before`, in
which nothing is told yet: the key has the very element that the call returns, whatever stood there,
and every other key of the map has what it had when the element was produced. No other map is
changed, neither by then, nor before a component body begins, nor by taking the notices. On a host
element the ref is no attribute, and the tree is the one that the config without its ref gives; a
component leaves all attributes and listeners to its body. -/
theorem create_binds_ref {children : List Element} {key : String} {map : RefsId}
    (hcreate : engine.create b type config children w = (.ok result, w'))
    (href : config.get? Config.refKey = some (.ref ⟨key, map⟩))
    (hmap : map < (engine.produced b type config (flatten children) w).refs.size) :
    let produced := engine.produced b type config (flatten children) w
    let before := (engine.make b type config (flatten children) w).2
    w' = (before.scene.tellings result children).foldl (fun w t => b.tell t.2 w t.1)
      { before with scene := before.scene.drained result children } ∧
    (before.scene.refMap map).get? key = some result ∧
    (∀ key', key' ≠ key → (before.scene.refMap map).get? key' = (produced.refMap map).get? key') ∧
    (∀ id, id ≠ map → before.scene.refMap id = produced.refMap id) ∧
    (∀ c id, (w.scene.enter c (flatten children)).refMap id = w.scene.refMap id) ∧
    (∀ id, (before.scene.drained result children).refMap id = before.scene.refMap id) ∧
    match type with
    | .tag name =>
      (∃ n, result = .node n ∧ Config.refKey ∉ (before.scene.node n).attributes.keys) ∧
        before.scene.tree =
          (engine.make b (.tag name) (config.erase Config.refKey) (flatten children) w).2.scene.tree
    | .component _ => ∀ n, (before.scene.node n).attributes = (produced.node n).attributes ∧
        (before.scene.node n).listeners = (produced.node n).listeners := by
  intro produced before
  have hr : config.refRequest = .ok (some ⟨key, map⟩) := by simp [Config.refRequest, href]
  obtain ⟨hmade, hlater⟩ := create_eq_ok hcreate
  have hrefs := refs_make hr hmade
  have hget := Scene.get?_refMap_of_bound hrefs map
  refine ⟨hlater, ?_, fun key' hkey => ?_, fun id hid => ?_,
    fun c id => w.scene.refMap_enter c (flatten children) id,
    before.scene.refMap_drained result children, ?_⟩
  · rw [hget, if_pos ⟨rfl, hmap⟩]
  · rw [hget, if_neg]
    rintro ⟨hsame, -⟩
    cases hsame
    exact hkey rfl
  · have hother := produced.refMap_bindIfAsked ⟨key, map⟩ result id
    rw [if_neg fun h => hid h.1] at hother
    rw [← hother, Scene.refMap, hrefs]
    rfl
  · cases type with
    | tag name =>
      obtain ⟨s, hresult, hmade', -, hfiled⟩ := create_tag_filed hcreate
      have hs : before.scene = s := by simp only [before, hmade']
      refine ⟨⟨_, hresult, fun hkey => ?_⟩, ?_⟩
      · rw [hs] at hkey
        exact (hfiled.of_mem_keys hkey).1 rfl
      · simp only [before, scene_make_tag]
        exact (Scene.tree_build_erase _ engine.events name hr _).symm
    | component c =>
      intro n
      obtain ⟨request, w₁, s, -, hbody, hsettle, hbefore⟩ := make_component_eq_ok hmade
      obtain ⟨pending, methods, hnode⟩ :=
        w₁.scene.node_settle c.name request w.scene.sinks.size result n
      have hproduced : produced = w₁.scene := by simp only [produced, Engine.produced, hbody]
      have hs : before.scene = s := congrArg World.scene hbefore
      rw [hsettle] at hnode
      rw [hs, hproduced, hnode]
      exact ⟨rfl, rfl⟩

/-- Components that create a link with their own config, ref included, and return a fragment around
it. -/
def wrapping : Behaviours Log :=
  { recording with
    render := fun _ props w =>
      match props.engine.create recording (.tag "a") props.config [] w with
      | (.error e, w) => (.error e, w)
      | (.ok e, w) =>
        (.ok (.fragment w.scene.addSlot.1 [e]), { w with scene := w.scene.addSlot.2 }) }

/-- The body has bound the link under the key of the call. The fragment takes its place, and the
other key is kept. -/
theorem create_binds_ref_of_wrapping :
    let config : Config := .ofList [("ref", .ref ⟨"k", 0⟩)]
    let w : World Log := ⟨{ Scene.empty .off with refs := #[.ofList [("j", .fragment 3 [])]] }, []⟩
    let wrapper : ElementType := .component ⟨some "Wrapper", "wrapper"⟩
    let produced := Engine.usual.produced wrapping wrapper config (flatten []) w
    let before := (Engine.usual.make wrapping wrapper config (flatten []) w).2
    (Engine.usual.create wrapping wrapper config [] w).1 = .ok (.fragment 0 [.node 0]) ∧
      (produced.refMap 0).get? "k" = some (.node 0) ∧
      (before.scene.refMap 0).get? "k" = some (.fragment 0 [.node 0]) ∧
      (before.scene.refMap 0).get? "j" = some (.fragment 3 []) := by
  intro config w wrapper produced before
  let created := Engine.usual.create wrapping wrapper config [] w
  have hcreate : created = (.ok (.fragment 0 [.node 0]), created.2) := rfl
  have href : config.get? Config.refKey = some (.ref ⟨"k", 0⟩) := rfl
  obtain ⟨-, hkey, hother, -⟩ := create_binds_ref hcreate href (by decide)
  exact ⟨rfl, rfl, hkey, (hother "j" (by decide)).trans rfl⟩

end Engine

end UiTree
