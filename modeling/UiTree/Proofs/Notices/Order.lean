import UiTree.Proofs.Host.Effect
import UiTree.Proofs.Notices.Move
import UiTree.Proofs.Notices.OwnNode
set_option autoImplicit false

/-!
The order of a delivery. A node has its notices in the order in which components registered them.
What is collected from the children goes node by node and then fragment by fragment, each at its
first occurrence, and it is gone from all of them before anything is told. If the result is a node,
each notice is then told that node once, in that order; if it is a fragment, they go to its slot, in
that order, behind what is left there.
-/

namespace UiTree

namespace Scene

theorem pending_announce (s : Scene) (result : Element) (notices : List Notice) (n : NodeId) :
    ((s.announce result notices).node n).pending = (s.node n).pending := by
  rw [node, tree_announce, node]

theorem pending_drained (s : Scene) (result : Element) (children : List Element) (n : NodeId) :
    ((s.drained result children).node n).pending =
      if n ∈ flatten children ∧ result.node? ≠ some n then [] else (s.node n).pending := by
  rw [drained, pending_announce, pending_collect]

theorem sameLinks_drained (s : Scene) (result : Element) (children : List Element) :
    Tree.SameLinks s.tree (s.drained result children).tree :=
  (s.sameLinks_collect _ _ _).trans (sameLinks_announce _ _ _)

theorem collect_fst_eq (s : Scene) (result : Element) (nodes : List NodeId) (slots : List SlotId) :
    (s.collect result nodes slots).1 =
      ((nodes.filter fun n => result.node? ≠ some n).eraseDups.flatMap
        fun n => (s.node n).pending) ++ slots.eraseDups.flatMap s.slot := by
  rw [collect_fst, gather_eq, gather_eq]

theorem nodup_collect {s : Scene} (h : ∀ x, s.waiting x ≤ 1) (result : Element)
    (nodes : List NodeId) (slots : List SlotId) : (s.collect result nodes slots).1.Nodup := by
  refine List.nodup_iff_count_le_one.2 fun x => ?_
  have hcollect := s.waiting_collect result nodes slots x
  have honce := h x
  omega

theorem notMem_drained {s : Scene} {p : NodeId} (hk : s.Knows (.node p)) {children : List Element}
    {x : Notice} (honce : s.waiting x ≤ 1)
    (hx : x ∈ (s.collect (.node p) (flatten children) (slotsOf children)).1) :
    (∀ n, x ∉ ((s.drained (.node p) children).node n).pending) ∧
    ∀ j, x ∉ (s.drained (.node p) children).slot j := by
  let got := s.collect (.node p) (flatten children) (slotsOf children)
  have hcollect : got.1.count x + got.2.waiting x = s.waiting x := s.waiting_collect _ _ _ x
  have hknown : got.2.Knows (.node p) := (s.extends_collect _ _ _).knows hk
  have hannounce : (s.drained (.node p) children).waiting x = got.2.waiting x :=
    waiting_announce hknown got.1 x
  have htaken : 0 < got.1.count x := List.count_pos_iff.2 hx
  have hzero : (s.drained (.node p) children).waiting x = 0 := by omega
  unfold waiting at hzero
  exact ⟨not_mem_of_occurrences (pending_of_size_le _) (show onNodes _ x = 0 by omega),
    not_mem_of_occurrences (slot_of_size_le _) (show inSlots _ x = 0 by omega)⟩

end Scene

theorem Engine.make_tag_places {ω : Type} {b : Behaviours ω} {engine : Engine} {tag : String}
    {config : Config} {es : List Element} {w before : World ω} {result : Element}
    (hwf : w.scene.tree.WellFormed)
    (hk : ∀ e ∈ es, w.scene.Knows e)
    (hmade : engine.make b (.tag tag) config (flatten es) w = (.ok result, before)) :
    ∃ p, result = .node p ∧ before.scene.tree.children p = (flatten es).dedup ∧
      ∀ c ∈ flatten es, before.scene.tree.parent c = some p := by
  obtain ⟨n, s', hbuild, -, -⟩ := make_tag_eq_ok hmade
  obtain ⟨-, request, hrequest, -⟩ := Scene.build_eq_ok hbuild
  obtain ⟨s, hmake, hbuilt⟩ := engine.make_tag_built b tag hrequest hwf hk
  rw [hmade] at hmake
  cases hmake
  refine ⟨w.scene.tree.size, rfl, congrArg NodeData.children hbuilt.new, fun c hc => ?_⟩
  have hrow := hbuilt.old c (Nat.ne_of_lt (Scene.lt_size_of_knows hk c hc))
  rw [if_pos hc] at hrow
  exact congrArg NodeData.parent hrow

namespace Course

open Scene (SameNotices)

/-- Every node has its notices in the order in which they were taken out of their sinks. -/
def Ordered (m : Moment) : Prop := ∀ n, ((m.scene.node n).pending).Sublist m.ledger.taken

namespace Ordered

theorem start (level : Level) : Ordered (.start level) := fun _ => List.nil_sublist _

theorem congr {m m' : Moment} (h : Ordered m) (hs : SameNotices m.scene m'.scene)
    (hl : m'.ledger.taken = m.ledger.taken) : Ordered m' := by
  intro n
  rw [hl, Scene.node, hs.pending n]
  exact h n

theorem act {s s' : Scene} {ks : List Frame} {l : Ledger} (h : Ordered ⟨s, ks, l⟩) (ha : Act s s') :
    Ordered ⟨s', ks, l⟩ := by
  rcases ha.sameNotices_or_offer with hs | ⟨cur, answer, rfl⟩
  · exact h.congr hs rfl
  · exact h

theorem deliver {m : Moment} (h : Ordered m) (result : Element) (nodes : List NodeId)
    (slots : List SlotId) : Ordered (m.deliver result nodes slots) := by
  intro n
  simp only [Moment.deliver, Scene.pending_announce, Scene.pending_collect]
  split
  · exact List.nil_sublist _
  · exact h n

theorem settle {s : Scene} {ks : List Frame} {l : Ledger} (h : Ordered ⟨s, ks, l⟩)
    {result : Element} (hk : s.Knows result) (name : Option String) (request : Option RefRequest)
    (cur : SinkId) :
    Ordered (.settle ⟨s, ks, l⟩ cur (s.settle name request cur result).2) := by
  intro n
  simp only [Moment.settle, Scene.pending_settle hk]
  refine (h n).append ?_
  split
  · exact List.Sublist.refl _
  · exact List.nil_sublist _

end Ordered

theorem Step.ordered {m m' : Moment} (hs : Step m m') (h : Ordered m) : Ordered m' := by
  cases hs with
  | act ha => exact h.act ha
  | @build s s' ks l engine name config children n hc hb =>
    have hbuilt : Ordered ⟨s', .code :: ks, l⟩ := h.congr (Scene.sameNotices_of_build hb) rfl
    exact hbuilt.deliver _ _ _
  | buildFails engine name config hc hb => exact h.congr (Scene.sameNotices_of_build hb) rfl
  | call s ks l c hc hr => exact h.congr (s.sameNotices_enter c _) rfl
  | @bodyReturns s s' ks l name request cur nodes slots result hk hset =>
    have hbelow : Ordered ⟨s, ks, l⟩ := h
    have hsettled := hbelow.settle hk name request cur
    rw [hset] at hsettled
    exact hsettled.deliver _ _ _
  | @bodyRefused s s' ks l name request cur nodes slots result e hk hset =>
    have hbelow : Ordered ⟨s, ks, l⟩ := h
    have hsettled := hbelow.settle hk name request cur
    rwa [hset] at hsettled
  | bodyFails | tell | answered | delivered | dispatch | hear | heard | rise | dispatched => exact h

theorem Reachable.ordered {m : Moment} (h : Reachable m) : Ordered m := by
  obtain ⟨level, hs⟩ := h
  induction hs with
  | refl => exact .start level
  | tail _ hlast ih => exact hlast.ordered ih

theorem Made.ordered {m₀ m : Moment} {result : Element} (h : Made m₀ result m) (hr : Reachable m₀) :
    Ordered m := by
  cases h with
  | @built s s' ks l events name config nodes n hs hb =>
    have hbefore : Reachable ⟨s, .code :: ks, l⟩ := hr.imp fun _ hstart => hstart.trans hs
    exact hbefore.ordered.congr (Scene.sameNotices_of_build hb) rfl
  | @settled s s' ks l name request cur nodes slots result hs hk hset =>
    have hbody : Reachable ⟨s, .code :: .rendering name request cur nodes slots :: ks, l⟩ :=
      hr.imp fun _ hstart => hstart.trans hs
    have hbelow : Ordered ⟨s, ks, l⟩ := hbody.ordered
    have hsettled := hbelow.settle hk name request cur
    rwa [hset] at hsettled

theorem Balanced.waiting_le_one {m : Moment} {x : Notice} (h : Balanced m x) :
    m.scene.waiting x ≤ 1 := by
  have hmade := m.scene.made_le_one x
  obtain ⟨hplaces, honce⟩ := h
  omega

variable {ω : Type} {b : Behaviours ω} {inOrder : World ω → Prop}

/-- Of every create call in every reachable scene that makes an element, in the scene `s`: the nodes
have their notices in the order of registration. The notices of the children are collected node by
node, without the result, and then fragment by fragment, the outer ones first, everything at its
first occurrence and nothing twice. In the scene `start`, in which the first of them is told, all of
them are gone from there. If the result is a node, each of them is told that node once, in that
order; if it is a fragment, none is told, and they come behind what its slot has left. A host
element has all its children by then. -/
theorem Follows.create_delivers_in_order (hb : Follows b inOrder) {engine : Engine}
    {type : ElementType} {config : Config} {children : List Element} {w before : World ω}
    {result : Element} {ks : List Frame} {l : Ledger}
    (hr : Reachable ⟨w.scene, .code :: ks, l⟩) (hw : inOrder w)
    (hc : ∀ e ∈ children, w.scene.Knows e)
    (hmade : engine.make b type config (flatten children) w = (.ok result, before)) :
    let s := before.scene
    let nodes := ((flatten children).filter fun n => result.node? ≠ some n).eraseDups
    let notices :=
      (nodes.flatMap fun n => (s.node n).pending) ++ (slotsOf children).eraseDups.flatMap s.slot
    let start := s.drained result children
    (∃ m, Made ⟨w.scene, .code :: ks, l⟩ result m ∧ m.scene = s ∧
      ∀ n, ((s.node n).pending).Sublist m.ledger.taken) ∧
    (∀ xs slot items ys,
      slotsOf (xs ++ .fragment slot items :: ys) = slotsOf xs ++ slot ::
      (slotsOf items ++ slotsOf ys)) ∧
    (s.collect result (flatten children) (slotsOf children)).1 = notices ∧ notices.Nodup ∧
    (∀ n, (start.node n).pending = if n ∈ nodes then [] else (s.node n).pending) ∧
    (∀ p, result = .node p →
      engine.create b type config children w =
      (.ok result, notices.foldl (b.tell p) ⟨start, before.program⟩) ∧
      (∀ j, start.slot j = if j ∈ slotsOf children then [] else s.slot j) ∧
      ∀ x ∈ notices, (∀ n, x ∉ (start.node n).pending) ∧ ∀ j, x ∉ start.slot j) ∧
    (∀ slot items, result = .fragment slot items →
      engine.create b type config children w = (.ok result, ⟨start, before.program⟩) ∧
      ∀ j, start.slot j = (if j ∈ slotsOf children then [] else s.slot j) ++ if j =
      slot then notices else []) ∧
    ∀ name, type = .tag name → ∃ p, result = .node p ∧
      start.tree.children p = (flatten children).dedup ∧ ∀ c ∈ flatten children,
      start.tree.parent c = some p := by
  intro s nodes notices start
  have hcreate := engine.create_eq_tellings b type config children w
  rw [hmade] at hcreate
  obtain ⟨m, hm, hscene⟩ := hb.exists_made ks l hw hc hmade
  replace hscene : m.scene = s := hscene
  have hknown : s.Knows result := hscene ▸ hm.knows
  have honce : ∀ x, s.waiting x ≤ 1 := fun x => hscene ▸ (hm.balanced hr x).waiting_le_one
  have hcollect : (s.collect result (flatten children) (slotsOf children)).1 = notices :=
    s.collect_fst_eq _ _ _
  have hlinks : Tree.SameLinks s.tree start.tree := s.sameLinks_drained result children
  refine ⟨⟨m, hm, hscene, fun n => hscene ▸ hm.ordered hr n⟩, fun xs slot items ys => ?_, hcollect,
    hcollect ▸ Scene.nodup_collect honce _ _ _, fun n => ?_, ?_, ?_, ?_⟩
  · rw [slotsOf_append, slotsOf_cons, slotsOf_fragment]
    rfl
  · rw [s.pending_drained result children n]
    simp [nodes, List.mem_eraseDups]
  · rintro p rfl
    refine ⟨?_, (s.drained_announce p (flatten children) (slotsOf children) _).slot, fun x hx => ?_⟩
    · simp only [hcreate, Scene.tellings, List.foldl_map, hcollect, s, start]
    · exact Scene.notMem_drained hknown (honce x) (hcollect ▸ hx)
  · rintro slot items rfl
    refine ⟨hcreate, fun j => ?_⟩
    rw [← hcollect]
    exact (Scene.deferred_announce hknown (flatten children) (slotsOf children) _).slot j
  · rintro name rfl
    obtain ⟨p, hp, hchildren, hparents⟩ := Engine.make_tag_places hr.wellFormed hc hmade
    exact ⟨p, hp, (hlinks.children p).trans hchildren,
      fun c hmem => (hlinks.parent c).trans (hparents c hmem)⟩

/-- A notice waits on a text, and another one on a fragment around the text. -/
def awaited : Moment :=
  let row : NodeData :=
    { NodeData.ofKind (.text "a") with pending := [⟨0, .callback ⟨7, "f", none⟩⟩] }
  ⟨⟨⟨#[row]⟩, #[[⟨1, .callback ⟨8, "g", none⟩⟩]], #[.empty, .empty], #[.empty, .empty], #[], 2,
    ⟨.off, []⟩⟩, [.code], ⟨[⟨0, .callback ⟨7, "f", none⟩⟩, ⟨1, .callback ⟨8, "g", none⟩⟩], []⟩⟩

def awaitedText : Scene :=
  let row : NodeData :=
    { NodeData.ofKind (.text "a") with pending := [⟨0, .callback ⟨7, "f", none⟩⟩] }
  ⟨⟨#[row]⟩, #[[]], #[.empty], #[.empty], #[], 1, ⟨.off, []⟩⟩

theorem reachable_awaited : Reachable awaited := by
  have hnode : (textAndSlot.asked ⟨7, "f", none⟩).Knows (.node 0) := by
    have hsize : (textAndSlot.asked ⟨7, "f", none⟩).tree.size = 1 := rfl
    simp [Scene.knows_node_iff, hsize]
  have hfragment : (awaitedText.asked ⟨8, "g", none⟩).Knows (.fragment 0 [.node 0]) := by
    have hsizes : (awaitedText.asked ⟨8, "g", none⟩).tree.size = 1 ∧
        (awaitedText.asked ⟨8, "g", none⟩).slots.size = 1 := ⟨rfl, rfl⟩
    simp [Scene.knows_fragment_iff, Scene.knows_node_iff, hsizes]
  have hfirst : (textAndSlot.asked ⟨7, "f", none⟩).settle none none 0 (.node 0) =
      (.ok (.node 0), awaitedText) := rfl
  have hsecond : (awaitedText.asked ⟨8, "g", none⟩).settle none none 1 (.fragment 0 [.node 0]) =
      (.ok (.fragment 0 [.node 0]), awaited.scene) := rfl
  have hmiddle : Reachable ⟨awaitedText, [.code], ⟨[⟨0, .callback ⟨7, "f", none⟩⟩], []⟩⟩ :=
    reachable_textAndSlot.asked_returns hnode hfirst
  exact hmiddle.asked_returns hfragment hsecond

def repeatedText : List Element := [.fragment 0 [.node 0], .node 0, .fragment 0 [.node 0]]

/-- Both notices are told the host element, the one of the text first, and it has the text by then.
If a component returns the text, only the notice of the fragment is told. -/
theorem Follows.create_delivers_in_order_of_repeated : ∃ (x y : Notice) (host first : World Log),
    Reachable awaited ∧ (awaited.scene.node 0).pending = [x] ∧ awaited.scene.slot 0 = [y] ∧
    Engine.usual.make handingBack (.tag "div") .empty (flatten repeatedText) ⟨awaited.scene, []⟩ =
      (.ok (.node 1), host) ∧
    (host.scene.drained (.node 1) repeatedText).tree.children 1 = [0] ∧
    (Engine.usual.create handingBack (.tag "div") .empty repeatedText ⟨awaited.scene,
      []⟩).2.program = [(x.answer, 1), (y.answer, 1)] ∧
    Engine.usual.make handingBack (.component ⟨none, "first"⟩) .empty (flatten repeatedText)
      ⟨awaited.scene, []⟩ = (.ok (.node 0), first) ∧
    (first.scene.drained (.node 0) repeatedText).slot 0 = [] ∧
    ((first.scene.drained (.node 0) repeatedText).node 0).pending = [x] ∧
    (Engine.usual.create handingBack (.component ⟨none, "first"⟩) .empty repeatedText
      ⟨awaited.scene, []⟩).2.program = [(y.answer, 0)] := by
  have hknown : ∀ e ∈ repeatedText, awaited.scene.Knows e := by
    have hsizes : awaited.scene.tree.size = 1 ∧ awaited.scene.slots.size = 1 := ⟨rfl, rfl⟩
    simp [repeatedText, Scene.Knows, Element.nodes, Element.fragments, flatten,
      collectFragments, hsizes]
  have hhost : Engine.usual.make handingBack (.tag "div") .empty (flatten repeatedText)
    ⟨awaited.scene, []⟩ = (.ok (.node 1), _) := rfl
  have hfirst : Engine.usual.make handingBack (.component ⟨none, "first"⟩) .empty
    (flatten repeatedText) ⟨awaited.scene, []⟩ = (.ok (.node 0), _) := rfl
  obtain ⟨-, -, -, -, -, htold, -, hplaced⟩ :=
    follows_handingBack.create_delivers_in_order reachable_awaited trivial hknown hhost
  obtain ⟨-, -, -, -, hpending, htold', -, -⟩ :=
    follows_handingBack.create_delivers_in_order reachable_awaited trivial hknown hfirst
  obtain ⟨p, hp, hcomplete, -⟩ := hplaced "div" rfl
  cases hp
  obtain ⟨hcreate, -, -⟩ := htold 1 rfl
  obtain ⟨hcreate', hslots, -⟩ := htold' 0 rfl
  refine ⟨_, _, _, _, reachable_awaited, rfl, rfl, hhost, hcomplete.trans rfl, ?_, hfirst,
    (hslots 0).trans rfl, (hpending 0).trans rfl, ?_⟩
  · rw [hcreate]
    rfl
  · rw [hcreate']
    rfl

end Course

end UiTree
