import UiTree.Proofs.Host
import UiTree.Proofs.Notices.Collect
set_option autoImplicit false

/-!
All that building a host element does to a scene. There is one new row, made of the entries of the
config; the given nodes move under it, each to the place of its last occurrence; every other row
only loses them from its children; and the ref is bound. Where nothing waits on the children, a
create call does no more than that.
-/

namespace UiTree

namespace Scene

theorem node_furnish (s : Scene) (events : EventSet) (tag : String) (config : Config)
    (request : Option RefRequest) (n : NodeId) : (s.furnish events tag config request).node n =
      if n = s.tree.size then .furnished events tag config else s.node n := by
  have hadd : (s.addNode (.element tag)).2.tree.get n =
      if n = s.tree.size then .ofKind (.element tag) else s.node n :=
    Tree.get_add s.tree (.element tag) n
  rw [furnish_eq, node, modifyNode, Tree.get_modify, tree_bindIfAsked, size_addNode, hadd]
  by_cases hn : n = s.tree.size
  · simp [hn, NodeData.furnished]
  · simp [hn]

/-- What building a host element around the nodes leaves, in terms of the scene before. -/
structure HostBuilt (s s' : Scene) (row : NodeData) (request : Option RefRequest)
    (nodes : List NodeId) : Prop where
  wellFormed : s'.tree.WellFormed
  size : s'.tree.size = s.tree.size + 1
  new : s'.node s.tree.size = row.relink none nodes.dedup
  old : ∀ n, n ≠ s.tree.size → s'.node n =
    (s.node n).relink (if n ∈ nodes then some s.tree.size else (s.node n).parent)
      ((s.node n).children.filter (· ∉ nodes))
  refs : s'.refs = (s.bindIfAsked request (.node s.tree.size)).refs
  slots : s'.slots = s.slots
  sinks : s'.sinks = s.sinks
  flags : s'.flags = s.flags
  serials : s'.serials = s.serials

theorem build_built {s : Scene} (h : s.tree.WellFormed) (events : EventSet) (tag : String)
    {config : Config} {request : Option RefRequest} (hr : config.refRequest = .ok request)
    {nodes : List NodeId}
    (hn : ∀ n ∈ nodes, n < s.tree.size) :
    ∃ s', s.build events tag config nodes = (.ok s.tree.size, s') ∧
      HostBuilt s s' (.furnished events tag config) request nodes := by
  obtain ⟨s', hbuild, hhosts⟩ := build_of_lt events tag hr hn
  obtain ⟨-, request', hr', happend⟩ := build_eq_ok hbuild
  obtain rfl : request' = request := Except.ok.inj (hr'.symm.trans hr)
  let f := s.furnish events tag config request'
  obtain ⟨hkind, hroot, -, hnodes⟩ := s.furnish_root events tag config request'
  have hlinks : Tree.SameLinks (s.tree.add (.element tag)).2 f.tree :=
    s.sameLinks_furnish events tag config request'
  have hwf : s'.tree.WellFormed := by
    have hbuilt := wellFormed_build h events tag config hn
    rwa [hbuild] at hbuilt
  have hs' : s' = { f with tree := (f.tree.appendAll s.tree.size nodes).2 } :=
    congrArg Prod.snd happend.symm
  have hnode : ∀ n,
    s'.node n = (f.node n).relink (if n ∈ nodes then some s.tree.size else f.tree.parent n)
      ((f.tree.children n).filter (· ∉ nodes) ++ if n = s.tree.size then nodes.dedup else []) :=
      fun n => by
    rw [hs']
    exact Tree.get_appendAll nodes ((h.add _).sameLinks hlinks) hkind (hnodes nodes hn) n
  have hrow : ∀ n, f.node n = if n = s.tree.size then .furnished events tag config else s.node n :=
    s.node_furnish events tag config request'
  obtain ⟨hrefs, hslots, hsinks, hflags, hserials⟩ := s.furnish_rest events tag config request'
  subst hs'
  refine ⟨_, hbuild, hwf, hhosts.size, ?_, fun n hne => ?_, hrefs, hslots, hsinks, hflags, hserials⟩
  · have hnew : s.tree.size ∉ nodes := fun hm => Nat.lt_irrefl _ (hn _ hm)
    have hempty : f.tree.children s.tree.size = [] := by
      rw [hlinks.children, Tree.children_add, Tree.children_of_size_le (Nat.le_refl _)]
    rw [hnode, hrow, if_pos rfl, if_neg hnew, hroot, hempty, if_pos rfl]
    rfl
  · have hold : f.node n = s.node n := by rw [hrow, if_neg hne]
    rw [hnode, if_neg hne, List.append_nil]
    simp only [Tree.parent, Tree.children]
    change (f.node n).relink (if n ∈ nodes then _ else (f.node n).parent)
      ((f.node n).children.filter _) = _
    rw [hold]

theorem HostBuilt.pendingOn_eq {s s' : Scene} {row : NodeData} {request : Option RefRequest}
    {nodes : List NodeId} (h : HostBuilt s s' row request nodes) {es : List Element}
    (hes : ∀ n ∈ flatten es, n < s.tree.size) :
    s'.pendingOn es = s.pendingOn es := by
  refine pendingOn_congr (fun n hn => ?_) fun i _ => ?_
  · rw [h.old n (Nat.ne_of_lt (hes n hn))]
    rfl
  · rw [slot, h.slots]
    rfl

end Scene

namespace Engine

variable {ω : Type} (b : Behaviours ω) (engine : Engine) (tag : String) {config : Config}
  {request : Option RefRequest} {es : List Element} {w : World ω}

theorem make_tag_built (hr : config.refRequest = .ok request) (hwf : w.scene.tree.WellFormed)
    (hk : ∀ e ∈ es, w.scene.Knows e) :
    ∃ s', engine.make b (.tag tag) config (flatten es) w = (.ok (.node w.scene.tree.size),
      { w with scene := s' }) ∧
        Scene.HostBuilt w.scene s' (.furnished engine.events tag config) request (flatten es) := by
  let s := w.scene.announceTag tag (flatten es)
  obtain ⟨s', hbuild, hbuilt⟩ :=
    Scene.build_built (s := s) hwf engine.events tag hr (Scene.lt_size_of_knows hk)
  refine ⟨s', ?_, { hbuilt with refs := ?_ }⟩
  · rw [make_tag, hbuild]
    rfl
  · rw [hbuilt.refs]
    cases request <;> rfl

theorem create_tag_of_idle (hr : config.refRequest = .ok request) (hwf : w.scene.tree.WellFormed)
    (hk : ∀ e ∈ es, w.scene.Knows e) (hidle : w.scene.pendingOn es = []) :
    ∃ s', engine.create b (.tag tag) config es w = (.ok (.node w.scene.tree.size),
      { w with scene := s' }) ∧
        Scene.HostBuilt w.scene s' (.furnished engine.events tag config) request (flatten es) := by
  obtain ⟨s', hmake, hbuilt⟩ := engine.make_tag_built b tag hr hwf hk
  have hidle' : s'.pendingOn es = [] := by
    rw [hbuilt.pendingOn_eq (Scene.lt_size_of_knows hk), hidle]
  refine ⟨s', ?_, hbuilt⟩
  rw [create_eq, hmake]
  simp only [Scene.collect_of_idle hidle']
  rfl

end Engine

end UiTree
