import UiTree.Proofs.Scene.Links
set_option autoImplicit false

/-!
The tables of a scene only grow: a node, slot, sink, map of refs or flag that was made once stays.
-/

namespace UiTree

namespace Tree

theorem size_le_setTextContent (t : Tree) (n : NodeId) (text : String) :
    t.size ≤ (t.setTextContent n text).size := by
  unfold setTextContent
  split
  · simp
  · simp only
    split
    · simp
    · simp only [size_modify, size_add, size_clear]
      omega

theorem size_appendAll (p : NodeId) (cs : List NodeId) (t : Tree) :
    (t.appendAll p cs).2.size = t.size := by
  induction cs generalizing t with
  | nil => rfl
  | cons c rest ih =>
    rw [appendAll]
    cases ha : t.append p c with
    | error e => rfl
    | ok t' => rw [ih, size_append ha]

end Tree

namespace Scene

/-- Nothing that was made before is gone. -/
structure Extends (s s' : Scene) : Prop where
  nodes : s.tree.size ≤ s'.tree.size
  slots : s.slots.size ≤ s'.slots.size
  refs : s.refs.size ≤ s'.refs.size
  sinks : s.sinks.size ≤ s'.sinks.size
  flags : s.flags.size ≤ s'.flags.size

namespace Extends

theorem refl (s : Scene) : s.Extends s :=
  ⟨Nat.le_refl _, Nat.le_refl _, Nat.le_refl _, Nat.le_refl _, Nat.le_refl _⟩

theorem of_eq {s s' : Scene} (hn : s.tree.size = s'.tree.size) (hl : s.slots = s'.slots)
    (hr : s.refs = s'.refs) (hk : s.sinks = s'.sinks) (hf : s.flags = s'.flags) : s.Extends s' :=
  ⟨hn.le, by rw [hl], by rw [hr], by rw [hk], by rw [hf]⟩

theorem trans {s s' s'' : Scene} (h : s.Extends s') (h' : s'.Extends s'') : s.Extends s'' :=
  ⟨h.nodes.trans h'.nodes, h.slots.trans h'.slots, h.refs.trans h'.refs, h.sinks.trans h'.sinks,
    h.flags.trans h'.flags⟩

theorem foldl {α : Type} {f : Scene → α → Scene} (hf : ∀ (s : Scene) (a : α), s.Extends (f s a))
    (as : List α) (s : Scene) : s.Extends (as.foldl f s) := by
  induction as generalizing s with
  | nil => exact refl s
  | cons a rest ih => exact (hf s a).trans (ih _)

theorem knows {s s' : Scene} (h : s.Extends s') {e : Element} (he : s.Knows e) : s'.Knows e :=
  ⟨fun n hn => Nat.lt_of_lt_of_le (he.1 n hn) h.nodes,
    fun f hf => Nat.lt_of_lt_of_le (he.2 f hf) h.slots⟩

end Extends

theorem extends_tree (s : Scene) {t : Tree} (h : s.tree.size ≤ t.size) :
    s.Extends { s with tree := t } :=
  { Extends.refl s with nodes := h }

theorem extends_addNode (s : Scene) (kind : Kind) : s.Extends (s.addNode kind).2 :=
  s.extends_tree (t := (s.tree.add kind).2) (by rw [Tree.size_add]; omega)

theorem extends_message (s : Scene) (level : Level) (text : String) :
    s.Extends (s.message level text) :=
  .of_eq rfl rfl rfl rfl rfl

theorem extends_takeSerial (s : Scene) : s.Extends s.takeSerial.2 := .of_eq rfl rfl rfl rfl rfl

theorem extends_modifyNode (s : Scene) (n : NodeId) (f : NodeData → NodeData) :
    s.Extends (s.modifyNode n f) :=
  s.extends_tree (by simp)

theorem extends_modifySink (s : Scene) (id : SinkId) (f : Sink → Sink) :
    s.Extends (s.modifySink id f) :=
  { Extends.refl s with sinks := by simp [modifySink] }

theorem extends_bindIfAsked (s : Scene) (request : Option RefRequest) (e : Element) :
    s.Extends (s.bindIfAsked request e) := by
  cases request with
  | none => exact .refl s
  | some r => exact { Extends.refl s with refs := by simp [bindIfAsked, bind, message] }

theorem extends_pushNotice (s : Scene) (e : Element) (n : Notice) :
    s.Extends (s.pushNotice e n) := by
  cases e with
  | node id => exact s.extends_modifyNode id _
  | fragment slot items => exact { Extends.refl s with slots := by simp [pushNotice] }

theorem extends_append (s : Scene) (p c : NodeId) : s.Extends (s.append p c).2 := by
  unfold append
  cases ha : s.tree.append p c with
  | error e => exact .refl s
  | ok t => exact s.extends_tree (Nat.le_of_eq (Tree.size_append ha).symm)

theorem extends_appendAll (s : Scene) (p : NodeId) (cs : List NodeId) :
    s.Extends (s.appendAll p cs).2 :=
  s.extends_tree (Nat.le_of_eq (Tree.size_appendAll p cs s.tree).symm)

theorem extends_renderInto (s : Scene) (root : NodeId) (e : Element) :
    s.Extends (s.renderInto root e).2 :=
  (s.extends_message _ _).trans (extends_appendAll _ root e.nodes)

theorem extends_render (s : Scene) (doc : Document) (e : Element) (id : String) :
    s.Extends (s.render doc e id).2 := by
  unfold render
  split
  · exact s.extends_renderInto _ e
  · exact .refl s

theorem extends_offerNotice (s : Scene) (id : SinkId) (c : Closure) :
    s.Extends (s.offerNotice id c) :=
  s.extends_takeSerial.trans (extends_modifySink _ id _)

theorem extends_offerMethod (s : Scene) (id : SinkId) (name : String) (c : Closure) :
    s.Extends (s.offerMethod id name c) := by
  unfold offerMethod
  split
  · exact s.extends_takeSerial.trans (extends_modifySink _ id _)
  · exact s.extends_modifySink id _

theorem extends_enter (s : Scene) (c : Component) (nodes : List NodeId) :
    s.Extends (s.enter c nodes) :=
  { Extends.refl s with
    sinks := by simp [enter, addSink, addRefs, announceCall, message]
    refs := by simp [enter, addSink, addRefs, announceCall, message] }

theorem extends_furnish (s : Scene) (events : EventSet) (tag : String) (config : Config)
    (request : Option RefRequest) : s.Extends (s.furnish events tag config request) := by
  refine (s.extends_addNode (.element tag)).trans
    ((extends_bindIfAsked _ request _).trans (.foldl ?_ _ _))
  intro s entry
  unfold applyEntry
  split
  · exact .refl s
  · split
    · exact s.extends_modifyNode _ _
    · exact s.extends_modifyNode _ _

theorem extends_build (s : Scene) (events : EventSet) (tag : String) (config : Config)
    (nodes : List NodeId) : s.Extends (s.build events tag config nodes).2 := by
  rw [build_eq]
  cases config.refRequest with
  | error e => exact s.extends_addNode _
  | ok request =>
    exact (s.extends_furnish events tag config request).trans (extends_appendAll _ _ nodes)

theorem knows_of_build {s s' : Scene} {events : EventSet} {tag : String} {config : Config}
    {nodes : List NodeId} {n : NodeId} (h : s.build events tag config nodes = (.ok n, s')) :
    s'.Knows (.node n) := by
  obtain ⟨rfl, request, -, ha⟩ := build_eq_ok h
  have hsize := (extends_appendAll (s.furnish events tag config request) s.tree.size nodes).nodes
  rw [ha, (sameLinks_furnish s events tag config request).size, size_addNode] at hsize
  refine ⟨fun n hn => ?_, fun f hf => ?_⟩
  · rw [Element.nodes, List.mem_singleton] at hn
    rw [hn]
    exact hsize
  · cases hf

theorem extends_settle (s : Scene) (name : Option String) (request : Option RefRequest)
    (cur : SinkId) (result : Element) : s.Extends (s.settle name request cur result).2 := by
  have hmove : ∀ s : Scene, s.Extends (s.moveNotice cur result) := by
    intro s
    unfold moveNotice
    split
    · exact (s.extends_modifySink cur _).trans (extends_pushNotice _ result _)
    · exact .refl s
  refine (s.extends_bindIfAsked request result).trans ((hmove _).trans ?_)
  unfold settle attachMethods
  simp only
  split
  · exact .refl _
  · cases result with
    | fragment slot items => exact .refl _
    | node n =>
      refine (extends_modifySink _ cur _).trans (.foldl ?_ _ _)
      intro s m
      exact (s.extends_message _ _).trans (extends_modifyNode _ n _)

theorem extends_takeFromNodes (nodes : List NodeId) (s : Scene) :
    s.Extends (s.takeFromNodes nodes).2 := by
  induction nodes generalizing s with
  | nil => exact .refl s
  | cons n rest ih => exact (s.extends_modifyNode n _).trans (ih _)

theorem extends_takeFromSlots (slots : List SlotId) (s : Scene) :
    s.Extends (s.takeFromSlots slots).2 := by
  induction slots generalizing s with
  | nil => exact .refl s
  | cons id rest ih =>
    have hone : s.Extends { s with slots := s.slots.setIfInBounds id [] } :=
      { Extends.refl s with slots := by simp }
    exact hone.trans (ih _)

theorem extends_collect (s : Scene) (result : Element) (nodes : List NodeId) (slots : List SlotId) :
    s.Extends (s.collect result nodes slots).2 :=
  (extends_takeFromNodes _ s).trans (extends_takeFromSlots slots _)

theorem extends_announce (s : Scene) (result : Element) (notices : List Notice) :
    s.Extends (s.announce result notices) := by
  unfold announce
  split
  · exact .refl s
  · cases result with
    | node parent => exact s.extends_message _ _
    | fragment slot items =>
      exact (s.extends_message _ _).trans (.foldl (fun s n => s.extends_pushNotice _ n) notices _)

end Scene

namespace Course

theorem Act.grows {s s' : Scene} (h : Act s s') : s.Extends s' := by
  cases h with
  | makeNode kind => exact s.extends_addNode kind
  | append p hc => exact s.extends_append p _
  | detach n => exact s.extends_tree (by simp)
  | setTextContent n text => exact s.extends_tree (Tree.size_le_setTextContent _ n text)
  | setAttribute | removeAttribute | listen | setMethod => exact s.extends_modifyNode _ _
  | renderInto root he => exact s.extends_renderInto root _
  | render doc id he => exact s.extends_render doc _ id
  | makeSlot => exact { Scene.Extends.refl s with slots := by simp [Scene.addSlot] }
  | makeRefs => exact { Scene.Extends.refl s with refs := by simp [Scene.addRefs] }
  | makeSink => exact { Scene.Extends.refl s with sinks := by simp [Scene.addSink] }
  | makeFlag => exact { Scene.Extends.refl s with flags := by simp [Scene.addFlag] }
  | takeSerial => exact s.extends_takeSerial
  | journal j => exact .of_eq rfl rfl rfl rfl rfl
  | offerMethod id name c => exact s.extends_offerMethod id name c
  | offerNotice id c => exact s.extends_offerNotice id c
  | stop e => exact { Scene.Extends.refl s with flags := by simp [Scene.stop] }
  | letGo kept => exact s.extends_tree (by simp)

theorem knows_new_fragment {s : Scene} {items : List Element} (h : ∀ e ∈ items, s.Knows e) :
    s.addSlot.2.Knows (.fragment s.slots.size items) := by
  have hslot : Act s s.addSlot.2 := .makeSlot s
  refine Scene.knows_fragment_iff.2 ⟨?_, fun e he => hslot.grows.knows (h e he)⟩
  simp [Scene.addSlot]

theorem Moment.extends_deliver (m : Moment) (result : Element) (nodes : List NodeId)
    (slots : List SlotId) : m.scene.Extends (m.deliver result nodes slots).scene :=
  (m.scene.extends_collect result nodes slots).trans (Scene.extends_announce _ result _)

theorem Step.grows {m m' : Moment} (h : Step m m') : m.scene.Extends m'.scene := by
  cases h with
  | act ha => exact ha.grows
  | @build s s' ks l engine name config children n hc hb =>
    have hbuild := (s.extends_message _ _).trans
      ((s.announceTag name (flatten children)).extends_build engine.events name config
        (flatten children))
    rw [hb] at hbuild
    exact hbuild.trans (Moment.extends_deliver ⟨s', _, _⟩ _ _ _)
  | @buildFails s s' ks l engine name config children e hc hb =>
    have hbuild := (s.extends_message _ _).trans
      ((s.announceTag name (flatten children)).extends_build engine.events name config
        (flatten children))
    rwa [hb] at hbuild
  | call s ks l c hc hr => exact s.extends_enter c _
  | @bodyReturns s s' ks l name request cur nodes slots result hk hs =>
    have hsettle := s.extends_settle name request cur result
    rw [hs] at hsettle
    exact hsettle.trans (Moment.extends_deliver (.settle ⟨s, ks, l⟩ cur s') _ _ _)
  | @bodyRefused s s' ks l name request cur nodes slots result e hk hs =>
    have hsettle := s.extends_settle name request cur result
    rwa [hs] at hsettle
  | dispatch s =>
    exact { Scene.Extends.refl s with flags := by simp [Moment.arrive, Scene.event, Scene.addFlag] }
  | bodyFails | tell | answered | delivered | hear | heard | rise | dispatched => exact .refl _

theorem Steps.grows {m m' : Moment} (h : Steps m m') : m.scene.Extends m'.scene := by
  induction h with
  | refl => exact .refl _
  | tail _ hlast ih => exact ih.trans hlast.grows

end Course

end UiTree
