import UiTree.Proofs.Binding
import UiTree.Proofs.Blueprint.Closing
set_option autoImplicit false

/-!
Grouping children. A create call works on the nodes of its children and on the notices that wait in
their fragments. Fragments in which nothing waits, and which nothing but the children refers to,
leave no trace: the call does what it does for the bare nodes, so two groupings of the same nodes
cannot be told apart.

Slots are numbers here, and nothing would keep a component body from writing into one that it was
never given. That code gets at no fragment without a reference to it is therefore said of the bodies
(`Behaviours.Confined`), with an inventory of the places where a reference can be kept.
-/

namespace UiTree

variable {ω : Type}

/-- The second list is the first with runs of elements wrapped in fragments, to any depth. A run may
be empty. -/
inductive Wrapped : List Element → List Element → Prop where
  | nil : Wrapped [] []
  | keep (e : Element) {es fs : List Element} (h : Wrapped es fs) : Wrapped (e :: es) (e :: fs)
  | wrap (slot : SlotId) {run items es fs : List Element} (hrun : Wrapped run items)
      (h : Wrapped es fs) : Wrapped (run ++ es) (.fragment slot items :: fs)
  | within (slot : SlotId) {items items' es fs : List Element} (hitems : Wrapped items items')
      (h : Wrapped es fs) : Wrapped (.fragment slot items :: es) (.fragment slot items' :: fs)

theorem Wrapped.flatten_eq {es fs : List Element} (h : Wrapped es fs) :
    flatten fs = flatten es := by
  induction h with
  | nil => rfl
  | keep e _ ih => rw [flatten, flatten, ih]
  | wrap slot _ _ ihrun ih => rw [flatten, Element.nodes, flatten_append, ihrun, ih]
  | within slot _ _ ihitems ih => rw [flatten, flatten, Element.nodes, Element.nodes, ihitems, ih]

mutual

def Value.slots : Value → List SlotId
  | .element e => slotsOf [e]
  | .list items => slotsIn items
  | _ => []

def slotsIn : List Value → List SlotId
  | [] => []
  | v :: rest => v.slots ++ slotsIn rest

end

/-- A fragment with the slot stands in a map of refs or among the listeners of a node. -/
def Scene.Refers (s : Scene) (k : SlotId) : Prop :=
  (∃ id key e, (s.refMap id).get? key = some e ∧ k ∈ slotsOf [e]) ∨
    ∃ n, k ∈ slotsIn (s.node n).listeners.values

def Config.Refers (config : Config) (k : SlotId) : Prop := k ∈ slotsIn (config.entries.map (·.2))

/-- A slot that was made and that neither the scene nor the program nor the config refers to. What
the program refers to is for the program to say. -/
structure Unshared (holds : ω → SlotId → Prop) (config : Config) (w : World ω) (k : SlotId) :
    Prop where
  made : k < w.scene.slots.size
  scene : ¬ w.scene.Refers k
  program : ¬ holds w.program k
  config : ¬ config.Refers k

/-- Component bodies that get at no fragment without a reference to it: they leave its slot alone
and do not return it. -/
structure Behaviours.Confined (b : Behaviours ω) (holds : ω → SlotId → Prop) : Prop where
  render : ∀ (c : Component) (props : Props) {w : World ω} {k : SlotId},
    Unshared holds props.config w k → (b.render c props w).2.scene.slot k = w.scene.slot k ∧
      ∀ e, (b.render c props w).1 = .ok e → k ∉ slotsOf [e]

/-- Nothing waits in the fragments of the elements, and nothing else refers to them. -/
def World.PlainGroups (holds : ω → SlotId → Prop) (config : Config) (w : World ω)
    (es : List Element) : Prop :=
  ∀ k ∈ slotsOf es, w.scene.slot k = [] ∧ Unshared holds config w k

namespace Scene

theorem refers_enter (s : Scene) (c : Component) (nodes : List NodeId) (k : SlotId) :
    (s.enter c nodes).Refers k ↔ s.Refers k := by
  simp only [Refers, refMap_enter]
  rfl

theorem slot_settle (s : Scene) (name : Option String) (request : Option RefRequest) (cur : SinkId)
    {result : Element} {k : SlotId} (hk : k ∉ slotsOf [result]) :
    (s.settle name request cur result).2.slot k = s.slot k := by
  cases result with
  | node p =>
    obtain ⟨journal, heq⟩ := s.settle_node name request cur p
    rw [heq]
    rfl
  | fragment slot items =>
    obtain ⟨journal, heq⟩ := s.settle_fragment name request cur slot items
    have hne : k ≠ slot := by
      rintro rfl
      exact hk (by simp [slotsOf_fragment])
    rw [heq]
    exact (s.slot_modify slot k _).trans (if_neg fun h => hne h.1)

theorem collect_of_empty_slots {s : Scene} (result : Element) (nodes : List NodeId)
    {slots : List SlotId} (h : ∀ k ∈ slots, s.slot k = []) :
    s.collect result nodes slots = s.collect result nodes [] := by
  let taken := s.takeFromNodes (nodes.filter fun n => result.node? ≠ some n)
  have hempty : ∀ k ∈ slots, taken.2.slot k = [] := fun k hk => by
    rw [slot, slots_takeFromNodes]
    exact h k hk
  have hslots : taken.2.takeFromSlots slots = taken.2.takeFromSlots [] :=
    takeFromSlots_of_idle hempty
  simp only [collect]
  rw [hslots]

end Scene

theorem Unshared.enter {holds : ω → SlotId → Prop} {config : Config} {w : World ω} {k : SlotId}
    (h : Unshared holds config w k) (c : Component) (nodes : List NodeId) :
    Unshared holds config { w with scene := w.scene.enter c nodes } k where
  made := h.made
  scene := fun hk => h.scene ((w.scene.refers_enter c nodes k).1 hk)
  program := h.program
  config := h.config

namespace Behaviours.Confined

variable {b : Behaviours ω} {holds : ω → SlotId → Prop} {engine : Engine} {type : ElementType}
  {config : Config} {w before : World ω} {result : Element}

theorem slot_make (hb : b.Confined holds) {k : SlotId} (hk : Unshared holds config w k)
    {nodes : List NodeId} (hmade : engine.make b type config nodes w = (.ok result, before)) :
    before.scene.slot k = w.scene.slot k := by
  cases type with
  | tag name =>
    obtain ⟨n, s, hbuild, rfl, rfl⟩ := Engine.make_tag_eq_ok hmade
    exact (Scene.sameNotices_of_build hbuild).slot k
  | component c =>
    obtain ⟨request, w₁, s, -, hbody, hsettle, rfl⟩ := Engine.make_component_eq_ok hmade
    obtain ⟨hslot, hreturned⟩ :=
      hb.render c (engine.propsIn config nodes w.scene) (hk.enter c nodes)
    rw [hbody] at hslot hreturned
    have hsettled := w₁.scene.slot_settle c.name request w.scene.sinks.size (hreturned result rfl)
    rw [hsettle] at hsettled
    exact hsettled.trans hslot

/-- Around plain fragments a create call does what it does for the bare nodes. -/
theorem create_of_plain (hb : b.Confined holds) {es : List Element}
    (hes : w.PlainGroups holds config es) :
    engine.create b type config es w = engine.create b type config ((flatten es).map .node) w := by
  rw [Engine.create_eq, Engine.create_eq, flatten_nodes, slotsOf_nodes]
  rcases hmade : engine.make b type config (flatten es) w with ⟨e | result, before⟩
  · rfl
  · have hempty : ∀ k ∈ slotsOf es, before.scene.slot k = [] := fun k hk => by
      rw [hb.slot_make (hes k hk).2 hmade]
      exact (hes k hk).1
    simp only [Scene.collect_of_empty_slots result (flatten es) hempty]

theorem create_congr (hb : b.Confined holds) {xs ys : List Element}
    (hnodes : flatten xs = flatten ys) (hxs : w.PlainGroups holds config xs)
    (hys : w.PlainGroups holds config ys) :
    engine.create b type config xs w = engine.create b type config ys w := by
  rw [hb.create_of_plain hxs, hb.create_of_plain hys, hnodes]

end Behaviours.Confined

inductive Called where
  | body (c : Component) (props : Props)
  | callback (c : Closure) (parent : NodeId)
  | method (c : Closure) (args : List Value)

def Called.telling (n : Notice) (parent : NodeId) : Called :=
  match n.answer with
  | .callback c => .callback c parent
  | .method c => .method c [.node parent]

def World.noting (w : World ω) (calls : List Called) : World (ω × List Called) :=
  ⟨w.scene, (w.program, calls)⟩

/-- The same behaviours, but what a create call runs is put at the end of a list. -/
def Behaviours.noting (b : Behaviours ω) : Behaviours (ω × List Called) where
  render c props w :=
    let made := b.render c props ⟨w.scene, w.program.1⟩
    (made.1, made.2.noting (w.program.2 ++ [.body c props]))
  handle c e w := (b.handle c e ⟨w.scene, w.program.1⟩).noting w.program.2
  respond c args e w := (b.respond c args e ⟨w.scene, w.program.1⟩).noting w.program.2
  invoke c args w :=
    let answered := b.invoke c args ⟨w.scene, w.program.1⟩
    (answered.1, answered.2.noting (w.program.2 ++ [.method c args]))
  notify c p w := (b.notify c p ⟨w.scene, w.program.1⟩).noting (w.program.2 ++ [.callback c p])

section

variable (b : Behaviours ω)

theorem Behaviours.tell_noting (p : NodeId) (w : World ω) (calls : List Called) (n : Notice) :
    b.noting.tell p (w.noting calls) n = (b.tell p w n).noting (calls ++ [Called.telling n p]) := by
  obtain ⟨serial, answer⟩ := n
  cases answer <;> rfl

theorem Behaviours.tellAll_noting (tellings : List (Notice × NodeId)) (w : World ω)
    (calls : List Called) : tellings.foldl (fun w t => b.noting.tell t.2 w t.1) (w.noting calls) =
      (tellings.foldl (fun w t => b.tell t.2 w t.1) w).noting
        (calls ++ tellings.map fun t => Called.telling t.1 t.2) := by
  induction tellings generalizing w calls with
  | nil => simp
  | cons t rest ih =>
    rw [List.foldl_cons, List.foldl_cons, tell_noting, ih, List.append_assoc]
    rfl

theorem Engine.make_noting (engine : Engine) (type : ElementType) (config : Config)
    (nodes : List NodeId) (w : World ω) (calls : List Called) :
    ∃ more, engine.make b.noting type config nodes (w.noting calls) =
      ((engine.make b type config nodes w).1,
        (engine.make b type config nodes w).2.noting (calls ++ more)) := by
  cases type with
  | tag name =>
    refine ⟨[], ?_⟩
    rw [make_tag, make_tag, List.append_nil]
    simp only [World.noting]
    rcases (w.scene.announceTag name nodes).build engine.events name config nodes with ⟨e | n, s⟩
    · rfl
    · rfl
  | component c =>
    rw [make_component, make_component]
    cases config.refRequest with
    | error e => exact ⟨[], by simp [World.noting]⟩
    | ok request =>
      refine ⟨[.body c (engine.propsIn config nodes w.scene)], ?_⟩
      simp only [World.noting, Behaviours.noting]
      rcases b.render c (engine.propsIn config nodes w.scene) ⟨w.scene.enter c nodes, w.program⟩
        with ⟨e | returned, w₁⟩
      · rfl
      · rfl

theorem Engine.create_noting (engine : Engine) (type : ElementType) (config : Config)
    (es : List Element) (w : World ω) :
    ∃ calls, engine.create b.noting type config es (w.noting []) =
      ((engine.create b type config es w).1,
        (engine.create b type config es w).2.noting calls) := by
  obtain ⟨first, hmake⟩ := engine.make_noting b type config (flatten es) w []
  rw [create_eq_tellings, create_eq_tellings, hmake]
  rcases engine.make b type config (flatten es) w with ⟨e | result, before⟩
  · exact ⟨_, rfl⟩
  · have htold := b.tellAll_noting (before.scene.tellings result es)
      { before with scene := before.scene.drained result es } first
    exact ⟨_, congrArg (Prod.mk (Except.ok result)) htold⟩

end

theorem Unshared.of_noting {holds : ω → SlotId → Prop} {config : Config}
    {w : World (ω × List Called)} {k : SlotId}
    (h : Unshared (fun program => holds program.1) config w k) :
    Unshared holds config ⟨w.scene, w.program.1⟩ k :=
  ⟨h.made, h.scene, h.program, h.config⟩

theorem Behaviours.Confined.noting {b : Behaviours ω} {holds : ω → SlotId → Prop}
    (hb : b.Confined holds) : b.noting.Confined fun program => holds program.1 :=
  ⟨fun c props _ _ hk => hb.render c props hk.of_noting⟩

theorem Unshared.noting {holds : ω → SlotId → Prop} {config : Config} {w : World ω} {k : SlotId}
    (h : Unshared holds config w k) (calls : List Called) :
    Unshared (fun program => holds program.1) config (w.noting calls) k :=
  ⟨h.made, h.scene, h.program, h.config⟩

theorem World.PlainGroups.noting {holds : ω → SlotId → Prop} {config : Config} {w : World ω}
    {es : List Element} (h : w.PlainGroups holds config es) (calls : List Called) :
    (w.noting calls).PlainGroups (fun program => holds program.1) config es :=
  fun k hk => ⟨(h k hk).1, (h k hk).2.noting calls⟩

/-- Of every world, element type, config and two groupings of the same nodes into plain fragments: a
create call has the same outcome for both, leaves the same world behind and runs the same body and
the same callbacks, in the same order and with the same arguments. So it is when runs of the
children are wrapped in further plain fragments, to any depth. -/
theorem Engine.create_regrouped {b : Behaviours ω} {holds : ω → SlotId → Prop}
    (hb : b.Confined holds) (engine : Engine) (type : ElementType) (config : Config) (w : World ω)
    {xs ys : List Element} (hnodes : flatten xs = flatten ys)
    (hxs : w.PlainGroups holds config xs) (hys : w.PlainGroups holds config ys) :
    (∃ outcome w' calls,
      engine.create b type config xs w = (outcome, w') ∧
      engine.create b type config ys w = (outcome, w') ∧
      engine.create b.noting type config xs (w.noting []) = (outcome, w'.noting calls) ∧
      engine.create b.noting type config ys (w.noting []) = (outcome, w'.noting calls)) ∧
    ∀ zs, Wrapped xs zs → w.PlainGroups holds config zs →
      engine.create b type config zs w = engine.create b type config xs w ∧
      engine.create b.noting type config zs (w.noting []) =
        engine.create b.noting type config xs (w.noting []) := by
  obtain ⟨calls, hcalls⟩ := engine.create_noting b type config xs w
  have hplain : engine.create b type config ys w = engine.create b type config xs w :=
    hb.create_congr hnodes.symm hys hxs
  have hnoted : engine.create b.noting type config ys (w.noting []) =
      engine.create b.noting type config xs (w.noting []) :=
    hb.noting.create_congr hnodes.symm (hys.noting []) (hxs.noting [])
  refine ⟨⟨_, _, calls, rfl, hplain, hcalls, hnoted.trans hcalls⟩, fun zs hwrapped hzs => ⟨?_, ?_⟩⟩
  · exact hb.create_congr hwrapped.flatten_eq hzs hxs
  · exact hb.noting.create_congr hwrapped.flatten_eq (hzs.noting []) (hxs.noting [])

def ruling : Behaviours Log :=
  { recording with
    render := fun _ props w => props.engine.create recording (.tag "hr") .empty [] w }

theorem confined_ruling (holds : Log → SlotId → Prop) : ruling.Confined holds where
  render _ props w k _ := by
    obtain ⟨w', hcreate, hcreated⟩ : ∃ w', props.engine.create recording (.tag "hr") .empty [] w =
        (.ok (.node w.scene.tree.size), w') ∧ Engine.HostCreated w w' [] :=
      Engine.create_tag_of_records records_recording props.engine "hr" rfl fun n hn => nomatch hn
    refine ⟨?_, fun e he => ?_⟩
    · refine (congrArg (fun made => made.2.scene.slot k) hcreate).trans ?_
      rw [hcreated.slot]
      rfl
    · cases (congrArg Prod.fst hcreate).symm.trans he
      exact List.not_mem_nil

/-- Two texts, the first of which waits for its parent, and three fragments in which nothing
waits. -/
def waitingTexts : World Log :=
  ⟨{ Scene.empty .off with
      tree := ⟨#[{ NodeData.ofKind (.text "a") with pending := [⟨0, .callback ⟨0, "told", none⟩⟩] },
        NodeData.ofKind (.text "b")]⟩,
      slots := #[[], [], []], serials := 1 }, []⟩

def bareTexts : List Element := [.node 0, .node 1]

def groupedTexts : List Element := [.fragment 0 [.fragment 1 [.node 0], .fragment 2 []], .node 1]

theorem not_refers_waitingTexts (k : SlotId) : ¬ waitingTexts.scene.Refers k := by
  rintro (⟨id, key, e, hget, -⟩ | ⟨n, hk⟩)
  · cases hget
  · match n with
    | 0 => cases hk
    | 1 => cases hk
    | n + 2 => cases hk

theorem plainGroups_waitingTexts {es : List Element} (hes : ∀ k ∈ slotsOf es, k < 3) :
    waitingTexts.PlainGroups (fun _ _ => False) .empty es := by
  intro k hk
  have hlt := hes k hk
  refine ⟨?_, hlt, not_refers_waitingTexts k, id, List.not_mem_nil⟩
  match k with
  | 0 => rfl
  | 1 => rfl
  | 2 => rfl

theorem Engine.create_regrouped_of_waitingTexts :
    Wrapped bareTexts groupedTexts ∧ (∀ k ∈ slotsOf groupedTexts, k < 3) ∧
    ∃ w' calls,
      Engine.usual.create ruling (.component ⟨none, "rule"⟩) .empty bareTexts waitingTexts =
        (.ok (.node 2), w') ∧
      Engine.usual.create ruling (.component ⟨none, "rule"⟩) .empty groupedTexts waitingTexts =
        (.ok (.node 2), w') ∧
      Engine.usual.create ruling.noting (.component ⟨none, "rule"⟩) .empty groupedTexts
        (waitingTexts.noting []) = (.ok (.node 2), w'.noting calls) ∧
      w'.program = [(.callback ⟨0, "told", none⟩, 2)] ∧ calls.length = 2 := by
  have hwrapped : Wrapped bareTexts groupedTexts :=
    .wrap 0 (.wrap 1 (.keep (.node 0) .nil) (.wrap 2 .nil .nil)) (.keep (.node 1) .nil)
  have hbare : ∀ k ∈ slotsOf bareTexts, k < 3 := by decide
  have hgrouped : ∀ k ∈ slotsOf groupedTexts, k < 3 := by decide
  obtain ⟨⟨outcome, w', calls, hxs, hys, -, hnoted⟩, -⟩ :=
    Engine.create_regrouped (confined_ruling fun _ _ => False)
    Engine.usual (.component ⟨none, "rule"⟩) .empty waitingTexts hwrapped.flatten_eq.symm
    (plainGroups_waitingTexts hbare) (plainGroups_waitingTexts hgrouped)
  have houtcome : outcome = .ok (.node 2) := (congrArg Prod.fst hxs).symm.trans rfl
  have hprogram : w'.program = [(.callback ⟨0, "told", none⟩, 2)] :=
    (congrArg (fun made => made.2.program) hxs).symm.trans rfl
  have hcalls : calls.length = 2 :=
    (congrArg (fun made => made.2.program.2.length) hnoted).symm.trans rfl
  subst houtcome
  exact ⟨hwrapped, hgrouped, w', calls, hxs, hys, hnoted, hprogram, hcalls⟩

end UiTree
