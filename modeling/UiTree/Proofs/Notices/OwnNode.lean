import UiTree.Proofs.Course.Calls
import UiTree.Proofs.Notices.Collect
import UiTree.Proofs.Notices.Conservation
import UiTree.Proofs.Recording
set_option autoImplicit false

/-!
Deliveries to a node of the children. A component may return one of the nodes that it was given.
What waits on that node is then left there, so nothing that waits on a node is ever told that node.
What waits on a fragment is told the result all the same, and so it is told a node of the fragment
just when the result is one.
-/

namespace UiTree

namespace Scene

/-- What the delivery of a create call tells, and whom. A fragment is nobody's parent. -/
def tellings (s : Scene) (result : Element) (children : List Element) : List (Notice × NodeId) :=
  match result with
  | .node p => (s.collect result (flatten children) (slotsOf children)).1.map fun x => (x, p)
  | .fragment _ _ => []

/-- The scene in which a delivery begins to tell: all that waited has been taken. -/
def drained (s : Scene) (result : Element) (children : List Element) : Scene :=
  let got := s.collect result (flatten children) (slotsOf children)
  got.2.announce result got.1

theorem mem_tellings {s : Scene} {result : Element} {children : List Element} {x : Notice}
    {p : NodeId} : (x, p) ∈ s.tellings result children ↔ result = .node p ∧
      ((∃ n ∈ flatten children, n ≠ p ∧ x ∈ (s.node n).pending) ∨
        ∃ f ∈ collectFragments children, x ∈ s.slot f.slot) := by
  cases result with
  | fragment slot items => simp [tellings]
  | node q =>
    simp only [tellings, collect_fst, List.mem_map, List.mem_append, mem_gather, List.mem_filter,
      Element.node?, slotsOf, Prod.mk.injEq, Element.node.injEq]
    constructor
    · rintro ⟨y, hy, rfl, rfl⟩
      refine ⟨rfl, hy.imp ?_ ?_⟩
      · rintro ⟨n, ⟨hn, hne⟩, hx⟩
        exact ⟨n, hn, fun h => of_decide_eq_true hne (h ▸ rfl), hx⟩
      · rintro ⟨_, ⟨f, hf, rfl⟩, hx⟩
        exact ⟨f, hf, hx⟩
    · rintro ⟨rfl, hx⟩
      refine ⟨x, hx.imp ?_ ?_, rfl, rfl⟩
      · rintro ⟨n, hn, hne, hx⟩
        exact ⟨n, ⟨hn, decide_eq_true fun h => hne (Option.some.inj h).symm⟩, hx⟩
      · rintro ⟨f, hf, hx⟩
        exact ⟨_, ⟨f, hf, rfl⟩, hx⟩

end Scene

theorem Engine.create_eq_tellings {ω : Type} (b : Behaviours ω) (engine : Engine)
    (type : ElementType) (config : Config) (children : List Element) (w : World ω) :
    engine.create b type config children w =
      match engine.make b type config (flatten children) w with
      | (.error e, w') => (.error e, w')
      | (.ok result, w') =>
        (.ok result, (w'.scene.tellings result children).foldl (fun w t => b.tell t.2 w t.1)
          { w' with scene := w'.scene.drained result children }) := by
  rw [Engine.create_eq]
  rcases engine.make b type config (flatten children) w with ⟨e | result, w'⟩
  · rfl
  · cases result with
    | node p =>
      simp only [Scene.tellings, Scene.drained, Engine.deliver_node, List.foldl_map]
    | fragment slot items =>
      simp only [Scene.tellings, Scene.drained, Engine.deliver_fragment, List.foldl_nil]

/-- A component was called without children, and its body has asked to be told the parent. -/
def Scene.asked (s : Scene) (f : Closure) : Scene :=
  (s.enter ⟨none, "c"⟩ (flatten [])).offerNotice s.sinks.size f

namespace Course

/-- A notice that waits on a node waits nowhere else. -/
theorem Balanced.only_on_node {m : Moment} {x : Notice} (h : Balanced m x) {n : NodeId}
    (hx : x ∈ (m.scene.node n).pending) :
    (∀ n', x ∈ (m.scene.node n').pending → n' = n) ∧ ∀ id, x ∉ m.scene.slot id := by
  obtain ⟨hplaces, honce⟩ := h
  have hmade := m.scene.made_le_one x
  have hsome : m.scene.onNodes x ≠ 0 := fun hzero =>
    not_mem_of_occurrences m.scene.pending_of_size_le hzero n hx
  unfold Scene.waiting at hplaces
  obtain ⟨i, -, hothers⟩ :=
    exists_of_occurrences m.scene.pending_of_size_le (show m.scene.onNodes x = 1 by omega)
  have hi : ∀ n', x ∈ (m.scene.node n').pending → n' = i := fun n' hn' =>
    Classical.byContradiction fun hne => hothers n' hne hn'
  refine ⟨fun n' hn' => (hi n' hn').trans (hi n hx).symm, ?_⟩
  exact not_mem_of_occurrences m.scene.slot_of_size_le (show m.scene.inSlots x = 0 by omega)

/-- In the moment `m` of a run from `m₀` a create call has made its element, and nothing of the
children was collected yet. -/
inductive Made (m₀ : Moment) : Element → Moment → Prop where
  | built {s s' : Scene} {ks : List Frame} {l : Ledger} {events : EventSet} {name : String}
      {config : Config} {nodes : List NodeId} {n : NodeId} (hs : Steps m₀ ⟨s, .code :: ks, l⟩)
      (hb : (s.announceTag name nodes).build events name config nodes = (.ok n, s')) :
      Made m₀ (.node n) ⟨s', .code :: ks, l⟩
  | settled {s s' : Scene} {ks : List Frame} {l : Ledger} {name : Option String}
      {request : Option RefRequest} {cur : SinkId} {nodes : List NodeId} {slots : List SlotId}
      {result : Element}
      (hs : Steps m₀ ⟨s, .code :: .rendering name request cur nodes slots :: ks, l⟩)
      (hk : s.Knows result)
      (hset : s.settle name request cur result = (.ok result, s')) :
      Made m₀ result (.settle ⟨s, ks, l⟩ cur s')

namespace Made

variable {m₀ m : Moment} {result : Element}

theorem knows (h : Made m₀ result m) : m.scene.Knows result := by
  cases h with
  | built hs hb => exact Scene.knows_of_build hb
  | @settled s s' ks l name request cur nodes slots result hs hk hset =>
    have hknown := (s.extends_settle name request cur result).knows hk
    rwa [hset] at hknown

theorem balanced (h : Made m₀ result m) (hr : Reachable m₀) (x : Notice) : Balanced m x := by
  cases h with
  | @built s s' ks l events name config nodes n hs hb =>
    have hbefore : Reachable ⟨s, .code :: ks, l⟩ := hr.imp fun _ hstart => hstart.trans hs
    exact (hbefore.balanced x).congr (Scene.sameNotices_of_build hb) rfl rfl
  | @settled s s' ks l name request cur nodes slots result hs hk hset =>
    have hbody : Reachable ⟨s, .code :: .rendering name request cur nodes slots :: ks, l⟩ :=
      hr.imp fun _ hstart => hstart.trans hs
    have hbelow : Balanced ⟨s, ks, l⟩ x :=
      (hbody.balanced x).congr (.refl _) (by simp [Frame.held]) rfl
    have hsettled := hbelow.settle hk name request cur
    rwa [hset] at hsettled

end Made

variable {ω : Type} {b : Behaviours ω} {inOrder : World ω → Prop}

theorem Follows.exists_made (hb : Follows b inOrder) {engine : Engine} {type : ElementType}
    {config : Config} {children : List Element} {w before : World ω} {result : Element}
    (ks : List Frame) (l : Ledger) (hw : inOrder w)
    (hc : ∀ e ∈ children, w.scene.Knows e)
    (hmade : engine.make b type config (flatten children) w = (.ok result, before)) :
    ∃ m : Moment, Made ⟨w.scene, .code :: ks, l⟩ result m ∧ m.scene = before.scene := by
  cases type with
  | tag name =>
    obtain ⟨n, s, hbuild, rfl, rfl⟩ := Engine.make_tag_eq_ok hmade
    exact ⟨⟨s, .code :: ks, l⟩, .built .refl hbuild, rfl⟩
  | component c =>
    obtain ⟨request, w₁, s, hrequest, hbody, hsettle, rfl⟩ := Engine.make_component_eq_ok hmade
    have henter := w.scene.extends_enter c (flatten children)
    have hnodes : ∀ n ∈ (engine.propsIn config (flatten children) w.scene).children,
        n < (w.scene.enter c (flatten children)).tree.size :=
      fun n hn => Nat.lt_of_lt_of_le (Scene.lt_size_of_knows hc n hn) henter.nodes
    have hcall : ∀ ks l, Step ⟨w.scene, .code :: ks, l⟩
        ⟨w.scene.enter c (flatten children), .code :: .rendering c.name request w.scene.sinks.size
          (flatten children) (slotsOf children) :: .code :: ks, l⟩ :=
      fun ks l => .call _ _ _ c hc hrequest
    have hrender := hb.render c (hb.stepped hw (hcall [] ⟨[], []⟩)) hnodes trivial
    rw [hbody] at hrender
    obtain ⟨hlead, -, hknown⟩ := hrender
    obtain ⟨l', hsteps, -⟩ := hlead (.rendering c.name request w.scene.sinks.size (flatten children)
      (slotsOf children) :: .code :: ks) l
    exact ⟨_, .settled (.head (hcall ks l) hsteps) (hknown _ rfl) hsettle, rfl⟩

theorem Follows.balanced_make (hb : Follows b inOrder) {engine : Engine} {type : ElementType}
    {config : Config} {children : List Element} {w before : World ω} {result : Element}
    {ks : List Frame} {l : Ledger}
    (hr : Reachable ⟨w.scene, .code :: ks, l⟩) (hw : inOrder w)
    (hc : ∀ e ∈ children, w.scene.Knows e)
    (hmade : engine.make b type config (flatten children) w = (.ok result, before)) :
    ∃ m : Moment, m.scene = before.scene ∧ ∀ x, Balanced m x := by
  obtain ⟨m, hm, hscene⟩ := hb.exists_made ks l hw hc hmade
  exact ⟨m, hscene, hm.balanced hr⟩

/-- Of every create call in every reachable scene: what waits on a node of the children is not told
that node, and what waits on a fragment among the children is told a node of the fragment just when
the component returned that node. A host element is new, so it is none of these. A call that fails
tells nothing. -/
theorem Follows.create_tells_own_node_iff (hb : Follows b inOrder) (engine : Engine)
    (type : ElementType) (config : Config) {children : List Element} {w : World ω} {ks : List Frame}
    {l : Ledger}
    (hr : Reachable ⟨w.scene, .code :: ks, l⟩) (hw : inOrder w)
    (hc : ∀ e ∈ children, w.scene.Knows e) :
    match engine.make b type config (flatten children) w with
    | (.error e, before) => engine.create b type config children w = (.error e, before)
    | (.ok result, before) =>
      let told := before.scene.tellings result children
      engine.create b type config children w = (.ok result, told.foldl (fun w t => b.tell t.2 w t.1)
        { before with scene := before.scene.drained result children }) ∧
      (∀ n ∈ flatten children, ∀ x ∈ (before.scene.node n).pending, (x, n) ∉ told) ∧
      (∀ f ∈ collectFragments children, ∀ x ∈ before.scene.slot f.slot, ∀ n ∈ f.nodes,
        (x, n) ∈ told ↔ result = .node n) ∧
      ∀ name, type = .tag name → ∀ n ∈ flatten children, result ≠ .node n := by
  have hcreate := engine.create_eq_tellings b type config children w
  rcases hmade : engine.make b type config (flatten children) w with ⟨e | result, before⟩
  · rw [hmade] at hcreate
    exact hcreate
  · rw [hmade] at hcreate
    refine ⟨hcreate, fun n hn x hx htold => ?_, fun f hf x hx n hn => ?_, ?_⟩
    · obtain ⟨m, hm, hbalanced⟩ := hb.balanced_make hr hw hc hmade
      rw [← hm] at hx htold
      obtain ⟨honly, hslots⟩ := (hbalanced x).only_on_node hx
      obtain ⟨-, ⟨n', -, hne, hx'⟩ | ⟨f, -, hx'⟩⟩ := Scene.mem_tellings.1 htold
      · exact hne (honly n' hx')
      · exact hslots _ hx'
    · rw [Scene.mem_tellings]
      exact ⟨fun h => h.1, fun h => ⟨h, .inr ⟨f, hf, hx⟩⟩⟩
    · rintro name rfl n hn rfl
      obtain ⟨n', s, hbuild, heq, -⟩ := Engine.make_tag_eq_ok hmade
      cases heq
      have hnew := (Scene.build_eq_ok hbuild).1
      exact Nat.lt_irrefl _ (hnew ▸ Scene.lt_size_of_knows hc n hn)

def handingBack : Behaviours Log :=
  { recording with
    render := fun _ props w =>
      match props.children with
      | [] => (.error (.component "no child"), w)
      | n :: _ => (.ok (.node n), w) }

theorem follows_handingBack : Follows handingBack fun _ => True := by
  have hstay : ∀ (calls : Log) {w w' : World Log}, w'.scene = w.scene →
      Account.blind.Leads calls w w' :=
    fun calls w w' h => .of_blind fun ks l => ⟨l, h ▸ .refl⟩
  refine ⟨fun _ _ => trivial, fun _ _ => trivial, fun {w} c {props} _ hn _ => ?_,
    fun {w} c {p} _ _ => ⟨hstay _ rfl, trivial⟩, fun {w} c {p} _ _ => ⟨hstay _ rfl, trivial⟩,
    fun {w} c {e} _ _ _ => ⟨hstay _ rfl, trivial⟩, fun {w} c {e} _ _ _ => ⟨hstay _ rfl, trivial⟩⟩
  obtain ⟨config, children, refs, cur, engine⟩ := props
  cases children with
  | nil => exact ⟨hstay _ rfl, trivial, fun e he => by cases he⟩
  | cons n rest =>
    refine ⟨hstay _ rfl, trivial, fun e he => ?_⟩
    cases he
    have hnode : ∀ m ∈ (Element.node n).nodes, m < w.scene.tree.size := by
      simpa [Element.nodes] using hn n (by simp)
    exact ⟨hnode, by simp [Element.fragments]⟩

theorem Moment.deliver_nil (m : Moment) (result : Element) : m.deliver result [] [] =
    { m with frames := (result.node?.map (Frame.telling · [])).toList ++ m.frames } := by
  cases result <;> rfl

theorem Reachable.asked_returns {s s' : Scene} {ks : List Frame} {l : Ledger} {f : Closure}
    (h : Reachable ⟨s, .code :: ks, l⟩) {result : Element} (hk : (s.asked f).Knows result)
    (hset : (s.asked f).settle none none s.sinks.size result = (.ok result, s')) :
    Reachable (.settle ⟨s.asked f, .code :: ks, l⟩ s.sinks.size s') := by
  obtain ⟨level, hstart⟩ := h
  have hnone : ∀ e ∈ ([] : List Element), s.Knows e := fun e he => by cases he
  have hcall : Step ⟨s, .code :: ks, l⟩ ⟨s.enter ⟨none, "c"⟩ (flatten []),
      .code :: .rendering none none s.sinks.size [] [] :: .code :: ks, l⟩ :=
    .call s ks l ⟨none, "c"⟩ hnone (show Config.refRequest .empty = .ok none from rfl)
  have hasked := (hstart.tail hcall).tail (.act (.offerNotice _ s.sinks.size f))
  have hreturn := hasked.tail (.bodyReturns [] [] hk hset)
  rw [Moment.deliver_nil] at hreturn
  cases result with
  | node p => exact ⟨level, hreturn.tail (.delivered _ _ _ p)⟩
  | fragment slot items => exact ⟨level, hreturn⟩

def textAndSlot : Scene := ((Scene.empty .off).addNode (.text "a")).2.addSlot.2

theorem reachable_textAndSlot : Reachable ⟨textAndSlot, [.code], ⟨[], []⟩⟩ :=
  ⟨.off, .tail (.single (.act (.makeNode _ _))) (.act (.makeSlot _))⟩

def awaitedFragment : Moment :=
  ⟨⟨⟨#[.ofKind (.text "a")]⟩, #[[⟨0, .callback ⟨7, "f", none⟩⟩]], #[.empty], #[.empty], #[], 1,
    ⟨.off, []⟩⟩, [.code], ⟨[⟨0, .callback ⟨7, "f", none⟩⟩], []⟩⟩

theorem reachable_awaitedFragment : Reachable awaitedFragment := by
  have hknown : (textAndSlot.asked ⟨7, "f", none⟩).Knows (.fragment 0 [.node 0]) := by
    have hsizes : (textAndSlot.asked ⟨7, "f", none⟩).tree.size = 1 ∧
        (textAndSlot.asked ⟨7, "f", none⟩).slots.size = 1 := ⟨rfl, rfl⟩
    simp [Scene.knows_fragment_iff, Scene.knows_node_iff, hsizes]
  have hsettle : (textAndSlot.asked ⟨7, "f", none⟩).settle none none 0 (.fragment 0 [.node 0]) =
      (.ok (.fragment 0 [.node 0]), awaitedFragment.scene) := rfl
  exact reachable_textAndSlot.asked_returns hknown hsettle

/-- A fragment around a text has a notice. A component is given the fragment and returns the text,
and the notice is told that its parent is the text. -/
theorem Follows.create_tells_own_node_of_fragment : ∃ (w : World Log) (x : Notice)
    (before : World Log), (∃ ks l, Reachable ⟨w.scene, .code :: ks, l⟩) ∧ w.scene.slot 0 = [x] ∧
      Engine.usual.make handingBack (.component ⟨none, "first"⟩) .empty
        (flatten [.fragment 0 [.node 0]]) w = (.ok (.node 0), before) ∧
      (x, 0) ∈ before.scene.tellings (.node 0) [.fragment 0 [.node 0]] ∧
      (Engine.usual.create handingBack (.component ⟨none, "first"⟩) .empty
        [.fragment 0 [.node 0]] w).2.program = [(x.answer, 0)] := by
  have hchildren : ∀ e ∈ [Element.fragment 0 [.node 0]], awaitedFragment.scene.Knows e := by
    have hsizes : awaitedFragment.scene.tree.size = 1 ∧ awaitedFragment.scene.slots.size = 1 :=
      ⟨rfl, rfl⟩
    simp [Scene.knows_fragment_iff, Scene.knows_node_iff, hsizes]
  obtain ⟨-, -, hfragments, -⟩ := follows_handingBack.create_tells_own_node_iff .usual
    (.component ⟨none, "first"⟩) .empty (w := ⟨awaitedFragment.scene, []⟩) reachable_awaitedFragment
    trivial hchildren
  refine ⟨⟨awaitedFragment.scene, []⟩, _, _, ⟨[], _, reachable_awaitedFragment⟩, rfl, rfl, ?_, rfl⟩
  exact (hfragments ⟨0, [.node 0]⟩ (by simp [collectFragments, Element.fragments]) _
    (List.mem_singleton.2 rfl) 0 (List.mem_singleton.2 rfl)).2 rfl

end Course

end UiTree
