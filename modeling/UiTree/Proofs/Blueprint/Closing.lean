import UiTree.Proofs.Blueprint
import UiTree.Proofs.Notices.Move
set_option autoImplicit false

/-!
One level of a blueprint: what happens when an element is made around elements that exist. A host
element is told to all that waited on them; a fragment takes over what waited, or leaves it where it
is. Either way a registration of its own waits on the new element.
-/

namespace UiTree

open List (Perm)

def Answer.serial : Answer → Nat
  | .callback c => c.serial
  | .method c => c.serial

/-- An element was made around `es`, with an answer of its own. -/
structure Closes (w w' : World Log) (es : List Element) (answer : Option Answer) (e : Element) :
    Prop where
  nodes_le : w.scene.tree.size ≤ w'.scene.tree.size
  slots_le : w.scene.slots.size ≤ w'.scene.slots.size
  sinks_le : w.scene.sinks.size ≤ w'.scene.sinks.size
  serials_le : w.scene.serials ≤ w'.scene.serials
  sink_other : ∀ id, id < w.scene.sinks.size → w'.scene.sink id = w.scene.sink id
  parent_other : ∀ n, n < w.scene.tree.size → n ∉ flatten es →
    w'.scene.tree.parent n = w.scene.tree.parent n
  pending_other : ∀ n, n < w.scene.tree.size → n ∉ flatten es →
    (w'.scene.node n).pending = (w.scene.node n).pending
  slot_other : ∀ i, i < w.scene.slots.size → i ∉ slotsOf es → w'.scene.slot i = w.scene.slot i
  nodes : e.nodes = flatten es ∨ ∃ n, e.nodes = [n] ∧ w.scene.tree.size ≤ n ∧ n < w'.scene.tree.size
  slots : slotsOf [e] = [] ∨ ∃ i old, slotsOf [e] = i :: old ∧ old.Sublist (slotsOf es) ∧
    w.scene.slots.size ≤ i ∧ i < w'.scene.slots.size
  waits : Perm ((w'.scene.pendingOn [e]).map (·.answer))
    (answer.toList ++ if e.isFragment then (w.scene.pendingOn es).map (·.answer) else [])
  calls : ∃ calls, w'.program = w.program ++ calls ∧
    Perm calls (e.node?.toList.flatMap fun n => (w.scene.pendingOn es).map fun x => (x.answer, n))
  answer_new : ∀ a ∈ answer, w.scene.serials ≤ a.serial ∧ a.serial < w'.scene.serials

namespace Scene

theorem pendingOn_node (s : Scene) (n : NodeId) : s.pendingOn [.node n] = (s.node n).pending := by
  simp [pendingOn, flatten, slotsOf, collectFragments, Element.nodes, Element.fragments]

end Scene

open Scene

theorem closes_text (w : World Log) (content : String) :
    Closes w { w with scene := (w.scene.addNode (.text content)).2 }
    [] none (.node w.scene.tree.size) := by
  have hsame := w.scene.sameNotices_addNode (.text content)
  have hsize := w.scene.size_addNode (.text content)
  constructor
  case nodes_le => exact hsize ▸ Nat.le_succ _
  case slots_le => exact Nat.le_refl _
  case sinks_le => exact Nat.le_refl _
  case serials_le => exact Nat.le_refl _
  case sink_other => exact fun id _ => rfl
  case parent_other => exact fun n _ _ => w.scene.tree.parent_add _ n
  case pending_other => exact fun n _ _ => hsame.pending n
  case slot_other => exact fun i _ _ => rfl
  case nodes => exact .inr ⟨_, rfl, Nat.le_refl _, hsize ▸ Nat.lt_succ_self _⟩
  case slots => exact .inl rfl
  case waits =>
    rw [pendingOn_node, node, hsame.pending, ← node, w.scene.pending_of_size_le _ (Nat.le_refl _)]
    exact .refl _
  case calls => exact ⟨[], by simp, .refl _⟩
  case answer_new => simp

theorem closes_fragment (w : World Log) (es : List Element) :
    Closes w { w with scene := w.scene.addSlot.2 } es none (.fragment w.scene.slots.size es) := by
  have hsame := w.scene.sameNotices_addSlot
  have hsize : w.scene.addSlot.2.slots.size = w.scene.slots.size + 1 := by simp [addSlot]
  constructor
  case nodes_le => exact Nat.le_refl _
  case slots_le => exact hsize ▸ Nat.le_succ _
  case sinks_le => exact Nat.le_refl _
  case serials_le => exact Nat.le_refl _
  case sink_other => exact fun id _ => rfl
  case parent_other => exact fun n _ _ => rfl
  case pending_other => exact fun n _ _ => rfl
  case slot_other => exact fun i _ _ => hsame.slot i
  case nodes => exact .inl rfl
  case slots =>
    exact .inr ⟨_, _, slotsOf_fragment _ es, List.Sublist.refl _, Nat.le_refl _,
      hsize ▸ Nat.lt_succ_self _⟩
  case waits =>
    have hnew : w.scene.addSlot.2.slot w.scene.slots.size = [] := by
      rw [hsame.slot, w.scene.slot_of_size_le _ (Nat.le_refl _)]
    have hold : w.scene.addSlot.2.pendingOn es = w.scene.pendingOn es :=
      pendingOn_congr (fun n _ => hsame.pending n) fun i _ => hsame.slot i
    have hall : w.scene.addSlot.2.pendingOn [.fragment w.scene.slots.size es] =
        w.scene.pendingOn es := by
      rw [← hold, pendingOn, slotsOf_fragment, List.flatMap_cons, hnew]
      simp [flatten, Element.nodes, pendingOn]
    simp [hall, Element.isFragment, Element.fragment?]
  case calls => exact ⟨[], by simp, .refl _⟩
  case answer_new => simp

theorem closes_host {w w' : World Log} {es : List Element} (h : Engine.HostCreated w w' es)
    (hn : (flatten es).Nodup) (hs : (slotsOf es).Nodup)
    (hk : ∀ n ∈ flatten es, n < w.scene.tree.size) :
    Closes w w' es none (.node w.scene.tree.size) := by
  constructor
  case nodes_le => exact h.size ▸ Nat.le_succ _
  case slots_le => exact Nat.le_of_eq h.slots.symm
  case sinks_le => exact Nat.le_of_eq (by rw [h.offers.1])
  case serials_le => exact Nat.le_of_eq h.offers.2.symm
  case sink_other => exact fun id _ => by simp only [sink, h.offers.1]
  case parent_other => exact fun n _ hnot => by rw [h.parent, if_neg hnot]
  case pending_other => exact fun n _ hnot => by rw [h.pending, if_neg hnot]
  case slot_other => exact fun i _ hnot => by rw [h.slot, if_neg hnot]
  case nodes => exact .inr ⟨_, rfl, Nat.le_refl _, h.size ▸ Nat.lt_succ_self _⟩
  case slots => exact .inl rfl
  case waits =>
    have hnot : w.scene.tree.size ∉ flatten es := fun hmem => Nat.lt_irrefl _ (hk _ hmem)
    rw [pendingOn_node, h.pending, if_neg hnot, w.scene.pending_of_size_le _ (Nat.le_refl _)]
    exact .refl _
  case calls =>
    refine ⟨_, h.program, ?_⟩
    rw [gather_of_nodup hn, gather_of_nodup hs]
    simp [Element.node?, pendingOn]
  case answer_new => simp

structure Registration.Offered (s s' : Scene) (cur : SinkId) (answer : Option Answer) : Prop where
  tree : s'.tree = s.tree
  slots : s'.slots = s.slots
  sinks : s.sinks.size ≤ s'.sinks.size
  serials : s.serials ≤ s'.serials
  sink_other : ∀ id, id < s.sinks.size → id ≠ cur → s'.sink id = s.sink id
  methods : (s'.sink cur).methods = .empty
  notice : (s'.sink cur).notice.toList.map (·.answer) = answer.toList
  answer_new : ∀ a ∈ answer, s.serials ≤ a.serial ∧ a.serial < s'.serials

theorem Registration.offered (r : Registration) {s : Scene} {cur : SinkId} (hc : cur < s.sinks.size)
    (he : s.sink cur = .empty) : Offered s (r.offer cur s) cur (r.answer s.serials) := by
  have hself : ∀ f, (s.takeSerial.2.takeSerial.2.modifySink cur f).sink cur = f .empty := by
    intro f
    rw [sink_modifySink, if_pos ⟨rfl, hc⟩]
    exact congrArg f he
  have hother : ∀ f id, id ≠ cur →
      (s.takeSerial.2.takeSerial.2.modifySink cur f).sink id = s.sink id := by
    intro f id hid
    rw [sink_modifySink, if_neg fun h => hid h.1]
    rfl
  have hsize : ∀ f, s.sinks.size ≤ (s.takeSerial.2.takeSerial.2.modifySink cur f).sinks.size := by
    simp [modifySink, takeSerial]
  cases r with
  | none =>
    exact ⟨rfl, rfl, Nat.le_refl _, Nat.le_refl _, fun id _ _ => rfl, congrArg Sink.methods he,
      by simp [offer, answer, he, Sink.empty], by simp [answer]⟩
  | callback code =>
    refine ⟨rfl, rfl, hsize _, Nat.le_add_right _ 2, fun id _ hid => hother _ id hid, ?_, ?_, ?_⟩
    · simp only [offer, answer, offerNotice, hself]
      rfl
    · simp only [offer, answer, offerNotice, hself]
      rfl
    · intro a ha
      cases ha
      exact ⟨Nat.le_refl _, Nat.lt_add_of_pos_right Nat.two_pos⟩
  | method code =>
    refine ⟨rfl, rfl, hsize _, Nat.le_add_right _ 2, fun id _ hid => hother _ id hid, ?_, ?_, ?_⟩
    · simp only [offer, answer, offerMethod, if_true, hself]
      rfl
    · simp only [offer, answer, offerMethod, if_true, hself]
      rfl
    · intro a ha
      cases ha
      exact ⟨Nat.le_refl _, Nat.lt_add_of_pos_right Nat.two_pos⟩

theorem Registration.offered_enter (r : Registration) (s : Scene) (c : Component)
    (nodes : List NodeId) : let s' := r.offer s.sinks.size (s.enter c nodes)
    Offered s s' s.sinks.size (r.answer s.serials) ∧ s.sinks.size < s'.sinks.size := by
  intro s'
  have hsink : s.sinks.size < (s.enter c nodes).sinks.size := by
    simp [enter, announceCall, message, addSink, addRefs]
  have ho := r.offered hsink (s.sink_enter c nodes)
  have hlt : s.sinks.size < s'.sinks.size := Nat.lt_of_lt_of_le hsink ho.sinks
  exact ⟨⟨ho.tree, ho.slots, Nat.le_of_lt hlt, ho.serials,
    fun id hid hcur => (ho.sink_other id (Nat.lt_trans hid hsink) hcur).trans
    (s.sink_enter_of_lt c nodes hid),
    ho.methods, ho.notice, ho.answer_new⟩, hlt⟩

theorem slotsOf_nodes (nodes : List NodeId) : slotsOf (nodes.map .node) = [] := by
  induction nodes with
  | nil => rfl
  | cons n rest ih => simpa [slotsOf, collectFragments, Element.fragments] using ih

theorem Scene.pendingOn_fragment_nodes (s : Scene) (slot : SlotId) (nodes : List NodeId) :
    s.pendingOn [.fragment slot (nodes.map .node)] = (nodes.flatMap fun n => (s.node n).pending) ++
      s.slot slot := by
  simp [pendingOn, flatten, Element.nodes, flatten_nodes, slotsOf_fragment, slotsOf_nodes]

section

variable {engine : Engine} {plan : Component → Plan} {c : Component} {config : SoundConfig}
  {es : List Element} {w : World Log} {s : Scene}
  (ho : Registration.Offered w.scene s w.scene.sinks.size
    ((plan c).registration.answer w.scene.serials))
  (hn : (flatten es).Nodup) (hs : (slotsOf es).Nodup)
  (hkn : ∀ n ∈ flatten es, n < w.scene.tree.size) (hks : ∀ i ∈ slotsOf es, i < w.scene.slots.size)

include ho hn hs hkn hks

/-- A component returned its children as a fragment: what waited on them waits in its slot, after
its own notice. -/
theorem closes_component_fragment (b : Behaviours Log) (name : Option String)
    (request : Option RefRequest) :
    let result : Element := .fragment w.scene.slots.size ((flatten es).map .node)
    ∃ s', s.addSlot.2.settle name request w.scene.sinks.size result = (.ok result, s') ∧
      Closes w (Engine.deliver b result (s'.collect result (flatten es) (slotsOf es)).1
        { w with scene := (s'.collect result (flatten es) (slotsOf es)).2 }) es
        ((plan c).registration.answer w.scene.serials) result := by
  intro result
  have hsize : s.addSlot.2.slots.size = w.scene.slots.size + 1 := by simp [addSlot, ho.slots]
  have hnodes : result.nodes = flatten es := flatten_nodes _
  have hslots : slotsOf [result] = [w.scene.slots.size] := by rw [slotsOf_fragment, slotsOf_nodes]
  have hknown : s.addSlot.2.Knows result := by
    refine ⟨fun n hm => ?_, fun f hf => ?_⟩
    · rw [hnodes] at hm
      change n < s.tree.size
      rw [ho.tree]
      exact hkn n hm
    · have hf : f.slot ∈ slotsOf [result] :=
        List.mem_map.2 ⟨f, by simpa [collectFragments] using hf, rfl⟩
      rw [hslots, List.mem_singleton] at hf
      rw [hf, hsize]
      exact Nat.lt_succ_self _
  obtain ⟨s', hsettle, hset⟩ :=
    settled_of_no_methods (s := s.addSlot.2) ho.methods name request hknown
  let own := (s.sink w.scene.sinks.size).notice.toList
  have hpending : ∀ m, (s'.node m).pending = (w.scene.node m).pending := by
    intro m
    rw [hset.pending, if_neg (by simp [result, Element.node?]), List.append_nil]
    simp only [node, addSlot, ho.tree]
  have hslot : ∀ j, s'.slot j = w.scene.slot j ++ if w.scene.slots.size = j then own else [] := by
    intro j
    have hsame : s.slot j = w.scene.slot j := by simp only [slot, ho.slots]
    rw [hset.slot, s.sameNotices_addSlot.slot, hsame]
    simp only [result, Element.fragment?, Option.map_some, Option.some.injEq]
    rfl
  have hold : ∀ j ∈ slotsOf es, w.scene.slots.size ≠ j := fun j hj => Nat.ne_of_gt (hks j hj)
  have hgot : (s'.collect result (flatten es) (slotsOf es)).1 = w.scene.pendingOn es := by
    rw [collect_of_nodup hn hs (by simp [result, Element.node?])]
    refine pendingOn_congr (fun n _ => hpending n) fun j hj => ?_
    rw [hslot, if_neg (hold j hj), List.append_nil]
  have hknown' : s'.Knows result := by
    have hext := (s.addSlot.2.extends_settle name request w.scene.sinks.size result).knows hknown
    rwa [hsettle] at hext
  have hnew : w.scene.slots.size ∉ slotsOf es := fun hmem => hold _ hmem rfl
  have hserials : w.scene.serials ≤ s'.serials := by
    rw [hset.serials]
    exact ho.serials
  refine ⟨s', hsettle, ?_⟩
  rw [Engine.deliver_fragment, hgot]
  have hdef := deferred_announce hknown' (flatten es) (slotsOf es) (w.scene.pendingOn es)
  simp only
  generalize Scene.announce _ _ _ = t at hdef ⊢
  constructor
  case nodes_le =>
    have hsame : w.scene.tree.size = s.tree.size := congrArg Tree.size ho.tree.symm
    exact Nat.le_of_eq (by rw [hdef.links.size, hset.links.size]; exact hsame)
  case slots_le =>
    rw [hdef.slots_size, hset.slots, hsize]
    exact Nat.le_succ _
  case sinks_le =>
    rw [hdef.offers.1, hset.sinks]
    exact ho.sinks
  case serials_le =>
    rw [hdef.offers.2]
    exact hserials
  case sink_other =>
    intro id hid
    have hcur : id ≠ w.scene.sinks.size := Nat.ne_of_lt hid
    rw [sink, hdef.offers.1]
    exact (hset.sink_other id hcur).trans (ho.sink_other id hid hcur)
  case parent_other =>
    intro n _ _
    rw [hdef.links.parent, hset.links.parent]
    exact congrArg (Tree.parent · n) ho.tree
  case pending_other =>
    intro n _ hnot
    rw [hdef.pending, if_neg hnot, hpending]
  case slot_other =>
    intro i hi hnot
    have hne : i ≠ w.scene.slots.size := Nat.ne_of_lt hi
    rw [hdef.slot, if_neg hnot, hslot, if_neg hne.symm, if_neg hne, List.append_nil,
      List.append_nil]
  case nodes => exact .inl hnodes
  case slots =>
    refine .inr ⟨_, _, hslots, List.nil_sublist _, Nat.le_refl _, ?_⟩
    rw [hdef.slots_size, hset.slots, hsize]
    exact Nat.lt_succ_self _
  case waits =>
    have hclear : ((flatten es).flatMap fun n => (t.node n).pending) = [] :=
      List.flatMap_eq_nil_iff.2 fun n hm => by rw [hdef.pending, if_pos hm]
    have hempty : w.scene.slot w.scene.slots.size = [] := w.scene.slot_of_size_le _ (Nat.le_refl _)
    have hall : t.pendingOn [result] = own ++ w.scene.pendingOn es := by
      rw [pendingOn_fragment_nodes, hclear, hdef.slot, if_neg hnew, if_pos rfl, hslot,
        if_pos rfl, hempty]
      rfl
    rw [hall, List.map_append, ho.notice]
    exact .refl _
  case calls => exact ⟨[], by simp, .refl _⟩
  case answer_new =>
    intro a ha
    obtain ⟨hge, hlt⟩ := ho.answer_new a ha
    refine ⟨hge, ?_⟩
    rw [hdef.offers.2, hset.serials]
    exact hlt

omit hks in
theorem closes_component_host {b : Behaviours Log} (hb : b.Records) {w₂ : World Log}
    (hh : Engine.HostCreated { w with scene := s } w₂ ((flatten es).map .node))
    (name : Option String)
    (request : Option RefRequest) :
    let result : Element := .node w.scene.tree.size
    ∃ s', w₂.scene.settle name request w.scene.sinks.size result = (.ok result, s') ∧
      Closes w (Engine.deliver b result (s'.collect result (flatten es) (slotsOf es)).1
        { w₂ with scene := (s'.collect result (flatten es) (slotsOf es)).2 }) es
        ((plan c).registration.answer w.scene.serials) result := by
  intro result
  obtain ⟨hsize, hparent, hpend, hslots, hslot, hoffers, hprogram⟩ := hh
  simp only [flatten_nodes, slotsOf_nodes, List.not_mem_nil, if_false, node, ho.tree]
    at hsize hparent hpend hprogram hslot hslots
  have hsink : w₂.scene.sink w.scene.sinks.size = s.sink w.scene.sinks.size := by
    simp only [sink, hoffers.1]
  have hknown : w₂.scene.Knows result := by
    refine ⟨fun n hm => ?_, fun f hf => by cases hf⟩
    rw [List.mem_singleton.1 hm, hsize]
    exact Nat.lt_succ_self _
  obtain ⟨s', hsettle, hset⟩ := settled_of_no_methods (hsink ▸ ho.methods) name request hknown
  let own := (s.sink w.scene.sinks.size).notice.toList
  have hne : ∀ n ∈ flatten es, w.scene.tree.size ≠ n := fun n hm => Nat.ne_of_gt (hkn n hm)
  have hpending : ∀ m, (s'.node m).pending =
      (if m ∈ flatten es then [] else (w.scene.node m).pending) ++ if w.scene.tree.size =
      m then own else [] := by
    intro m
    rw [hset.pending, node, hpend m, hsink]
    simp only [result, Element.node?, Option.some.injEq]
    rfl
  have hslot' : ∀ j, s'.slot j = w.scene.slot j := by
    intro j
    rw [hset.slot, hslot j, if_neg (by simp [result, Element.fragment?]), List.append_nil]
    simp only [slot, ho.slots]
  have hcleared : ∀ n ∈ flatten es, (s'.node n).pending = [] := by
    intro n hm
    rw [hpending, if_pos hm, if_neg (hne n hm), List.append_nil]
  have hgot : (s'.collect result (flatten es) (slotsOf es)).1 =
      (slotsOf es).flatMap w.scene.slot := by
    rw [collect_of_cleared hcleared, gather_of_nodup hs, List.flatMap_congr fun j _ => hslot' j]
  refine ⟨s', hsettle, ?_⟩
  rw [Engine.deliver_node_of_records hb, hgot]
  have hdrained :=
    s'.drained_announce w.scene.tree.size (flatten es) (slotsOf es)
      ((slotsOf es).flatMap w.scene.slot)
  simp only
  generalize Scene.announce _ _ _ = t at hdrained ⊢
  have hserials : t.serials = s.serials := by rw [hdrained.offers.2, hset.serials, hoffers.2]
  have htsize : t.tree.size = w.scene.tree.size + 1 := by
    rw [hdrained.links.size, hset.links.size, hsize]
  constructor
  case nodes_le => exact htsize ▸ Nat.le_succ _
  case slots_le => exact Nat.le_of_eq (by rw [hdrained.slots_size, hset.slots, hslots, ho.slots])
  case sinks_le =>
    rw [hdrained.offers.1, hset.sinks, hoffers.1]
    exact ho.sinks
  case serials_le => exact hserials ▸ ho.serials
  case sink_other =>
    intro id hid
    have hcur : id ≠ w.scene.sinks.size := Nat.ne_of_lt hid
    rw [sink, hdrained.offers.1]
    refine (hset.sink_other id hcur).trans ?_
    rw [sink, hoffers.1]
    exact ho.sink_other id hid hcur
  case parent_other =>
    intro n _ hnot
    rw [hdrained.links.parent, hset.links.parent, hparent, if_neg hnot]
  case pending_other =>
    intro n hlt hnot
    rw [hdrained.pending, if_neg fun h => hnot h.1, hpending, if_neg hnot,
      if_neg (Nat.ne_of_gt hlt), List.append_nil]
  case slot_other =>
    intro i _ hnot
    rw [hdrained.slot, if_neg hnot, hslot']
  case nodes => exact .inr ⟨_, rfl, Nat.le_refl _, htsize ▸ Nat.lt_succ_self _⟩
  case slots => exact .inl rfl
  case waits =>
    have hnot : w.scene.tree.size ∉ flatten es := fun hm => hne _ hm rfl
    rw [pendingOn_node, hdrained.pending, if_neg fun h => h.2 rfl, hpending, if_neg hnot,
      if_pos rfl, w.scene.pending_of_size_le _ (Nat.le_refl _), List.nil_append, ho.notice]
    simp [result, Element.isFragment, Element.fragment?]
  case calls =>
    refine ⟨_, by rw [hprogram, List.append_assoc], ?_⟩
    rw [gather_of_nodup hn]
    simp [result, gather, Element.node?, pendingOn, node]
  case answer_new =>
    intro a ha
    obtain ⟨hge, hlt⟩ := ho.answer_new a ha
    exact ⟨hge, hserials ▸ hlt⟩

end

theorem closes_component (engine : Engine) (plan : Component → Plan) (c : Component)
    (config : SoundConfig) {es : List Element} {w : World Log} (hn : (flatten es).Nodup)
    (hs : (slotsOf es).Nodup)
    (hkn : ∀ n ∈ flatten es, n < w.scene.tree.size)
    (hks : ∀ i ∈ slotsOf es, i < w.scene.slots.size) :
    ∃ e w', engine.create (performing plan) (.component c) config.config es w = (.ok e, w') ∧
      e.isFragment = (plan c).shape.isFragment ∧
      Closes w w' es ((plan c).registration.answer w.scene.serials) e := by
  let s := (plan c).registration.offer w.scene.sinks.size (w.scene.enter c (flatten es))
  have ho : Registration.Offered w.scene s w.scene.sinks.size
      ((plan c).registration.answer w.scene.serials) :=
    ((plan c).registration.offered_enter w.scene c (flatten es)).1
  rw [Engine.create_component, config.sound]
  simp only
  cases hshape : (plan c).shape with
  | fragment =>
    have hbody : (performing plan).render c (engine.propsIn config.config (flatten es) w.scene)
        { w with scene := w.scene.enter c (flatten es) } =
          (.ok (.fragment w.scene.slots.size ((flatten es).map .node)),
          { w with scene := s.addSlot.2 }) := by
      simp only [performing, Plan.perform, hshape]
      rw [← ho.slots]
      rfl
    obtain ⟨s', hsettle, hcloses⟩ :=
      closes_component_fragment ho hn hs hkn hks (performing plan) c.name config.request
    rw [hbody]
    simp only [hsettle]
    exact ⟨_, _, rfl, rfl, hcloses⟩
  | host tag inner =>
    obtain ⟨w₂, hcreate, hhost⟩ :=
      Engine.create_tag_of_records records_recording engine tag inner.sound
      (w := { w with scene := s }) (by rw [flatten_nodes, ho.tree]; exact hkn)
    have hbody : (performing plan).render c (engine.propsIn config.config (flatten es) w.scene)
        { w with scene := w.scene.enter c (flatten es) } = (.ok (.node w.scene.tree.size), w₂) := by
      simp only [performing, Plan.perform, hshape]
      rw [← ho.tree]
      exact hcreate
    obtain ⟨s', hsettle, hcloses⟩ :=
      closes_component_host ho hn hs hkn (records_performing plan) hhost c.name config.request
    rw [hbody]
    simp only [hsettle]
    exact ⟨_, _, rfl, rfl, hcloses⟩

end UiTree
