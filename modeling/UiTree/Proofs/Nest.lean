import UiTree.Proofs.Blueprint.Nearest
set_option autoImplicit false

/-!
Components that place their children inside a host element of their own, at any depth. A notice that
waits on a child itself is told the node that the child was placed in. A notice that waits on a
fragment among the children is told the result of the component, since the body was given the nodes
of the fragment and not the fragment; this is the node that its nodes were placed in just when they
are directly in the result.
-/

namespace UiTree

open Scene Built

/-- What a host element is given: one of the children of the component, by its position, or
something built for it. -/
inductive Item where
  | given (i : Nat)
  | made (b : Blueprint)

/-- A host element with the children among its items, or a host element around another one that has
them. -/
inductive Nest where
  | here (tag : String) (config : SoundConfig) (items : List Item)
  | within (tag : String) (config : SoundConfig) (before : List Blueprint) (inner : Nest)
      (after : List Blueprint)

namespace Nest

def PlacesAll (k : Nat) : Nest → Prop
  | .here _ _ items => ∀ i, i < k → .given i ∈ items
  | .within _ _ _ inner _ => inner.PlacesAll k

def depth : Nest → Nat
  | .here _ _ _ => 0
  | .within _ _ _ inner _ => inner.depth + 1

end Nest

section

variable (engine : Engine) (plan : Component → Plan) (children : List NodeId)

def Item.buildAll : List Item → World Log → Except Error (List Element) × World Log
  | [], w => (.ok [], w)
  | .given i :: rest, w =>
    match Item.buildAll rest w with
    | (.error e, w) => (.error e, w)
    | (.ok es, w) => (.ok (children[i]?.toList.map .node ++ es), w)
  | .made b :: rest, w =>
    match b.build engine plan w with
    | (.error e, w) => (.error e, w)
    | (.ok t, w) =>
      match Item.buildAll rest w with
      | (.error e, w) => (.error e, w)
      | (.ok es, w) => (.ok (t.element :: es), w)

def Nest.build : Nest → World Log → Except Error Element × World Log
  | .here tag config items, w =>
    match Item.buildAll engine plan children items w with
    | (.error e, w) => (.error e, w)
    | (.ok es, w) => engine.create (performing plan) (.tag tag) config.config es w
  | .within tag config before inner after, w =>
    match Blueprint.buildAll engine plan before w with
    | (.error e, w) => (.error e, w)
    | (.ok first, w) =>
      match inner.build w with
      | (.error e, w) => (.error e, w)
      | (.ok e, w) =>
        match Blueprint.buildAll engine plan after w with
        | (.error e, w) => (.error e, w)
        | (.ok last, w) =>
          engine.create (performing plan) (.tag tag) config.config
            (elements first ++ e :: elements last) w

end

def nesting (plan : Component → Plan) (r : Registration) (nest : Nest) : Behaviours Log :=
  { recording with
    render := fun _ props w =>
      nest.build props.engine plan props.children { w with scene := r.offer props.cur w.scene } }

theorem records_nesting (plan : Component → Plan) (r : Registration) (nest : Nest) :
    (nesting plan r nest).Records :=
  records_recording

namespace Scene

/-- All that was there is there. Only on the given nodes may less wait than before. -/
structure Spares (s s' : Scene) (given : List NodeId) : Prop where
  nodes : s.tree.size ≤ s'.tree.size
  slots : s.slots.size ≤ s'.slots.size
  sinks : s.sinks.size ≤ s'.sinks.size
  serials : s.serials ≤ s'.serials
  sink : ∀ id, id < s.sinks.size → s'.sink id = s.sink id
  slot : ∀ i, i < s.slots.size → s'.slot i = s.slot i
  pending : ∀ n, n < s.tree.size → n ∉ given → (s'.node n).pending = (s.node n).pending

theorem Keeps.spares {s s' : Scene} (h : Keeps s s') (given : List NodeId) : Spares s s' given :=
  ⟨h.nodes, h.slots, h.sinks, h.serials, h.sink, h.slot, fun n hn _ => h.pending n hn⟩

theorem Spares.trans {s s' s'' : Scene} {given : List NodeId} (h : Spares s s' given)
    (h' : Spares s' s'' given) : Spares s s'' given where
  nodes := h.nodes.trans h'.nodes
  slots := h.slots.trans h'.slots
  sinks := h.sinks.trans h'.sinks
  serials := h.serials.trans h'.serials
  sink id hid := (h'.sink id (Nat.lt_of_lt_of_le hid h.sinks)).trans (h.sink id hid)
  slot i hi := (h'.slot i (Nat.lt_of_lt_of_le hi h.slots)).trans (h.slot i hi)
  pending n hn hg := (h'.pending n (Nat.lt_of_lt_of_le hn h.nodes) hg).trans (h.pending n hn hg)

/-- The elements have some of the given nodes and else what is new, and what waits on the new is new
as well. -/
structure Brings (s s' : Scene) (given : List NodeId) (es : List Element) : Prop where
  nodes : ∀ n ∈ flatten es, n ∈ given ∨ s.tree.size ≤ n ∧ n < s'.tree.size ∧
    ∀ x ∈ (s'.node n).pending, s.serials ≤ x.answer.serial
  slots : ∀ i ∈ slotsOf es, s.slots.size ≤ i ∧ i < s'.slots.size ∧ ∀ x ∈ s'.slot i,
    s.serials ≤ x.answer.serial

theorem Brings.node_notMem {s s' : Scene} {given : List NodeId} {es : List Element}
    (h : Brings s s' given es) {n : NodeId} (hn : n < s.tree.size) (hg : n ∉ given) :
    n ∉ flatten es :=
  fun hm => (h.nodes n hm).elim hg fun hnew => Nat.not_lt.2 hnew.1 hn

theorem Brings.append {s s₁ s₂ : Scene} {given moved : List NodeId} {xs ys : List Element}
    (h : Brings s s₁ given xs) (h' : Brings s₁ s₂ given ys) (hs : Spares s s₁ moved)
    (hs' : Spares s₁ s₂ moved)
    (hm : ∀ n ∈ moved, n < s.tree.size) : Brings s s₂ given (xs ++ ys) := by
  refine ⟨fun n hn => ?_, fun i hi => ?_⟩
  · rw [flatten_append, List.mem_append] at hn
    rcases hn with hn | hn
    · refine (h.nodes n hn).imp_right fun ⟨hge, hlt, hnew⟩ =>
        ⟨hge, Nat.lt_of_lt_of_le hlt hs'.nodes, ?_⟩
      rw [hs'.pending n hlt fun hmem => Nat.not_lt.2 hge (hm n hmem)]
      exact hnew
    · refine (h'.nodes n hn).imp_right fun ⟨hge, hlt, hnew⟩ => ⟨Nat.le_trans hs.nodes hge, hlt,
        fun x hx => ?_⟩
      exact Nat.le_trans hs.serials (hnew x hx)
  · rw [slotsOf_append, List.mem_append] at hi
    rcases hi with hi | hi
    · obtain ⟨hge, hlt, hnew⟩ := h.slots i hi
      refine ⟨hge, Nat.lt_of_lt_of_le hlt hs'.slots, ?_⟩
      rw [hs'.slot i hlt]
      exact hnew
    · obtain ⟨hge, hlt, hnew⟩ := h'.slots i hi
      exact ⟨Nat.le_trans hs.slots hge, hlt, fun x hx => Nat.le_trans hs.serials (hnew x hx)⟩

theorem brings_given (s : Scene) {given nodes : List NodeId} (h : ∀ n ∈ nodes, n ∈ given) :
    Brings s s given (nodes.map .node) := by
  refine ⟨fun n hn => .inl ?_, fun i hi => ?_⟩
  · rw [flatten_nodes] at hn
    exact h n hn
  · rw [slotsOf_nodes] at hi
    cases hi

theorem Spares.host {s : Scene} {w w' : World Log} {given : List NodeId} {es : List Element}
    (h : Spares s w.scene given) (hb : Brings s w.scene given es)
    (hh : Engine.HostCreated w w' es) :
    Spares s w'.scene given where
  nodes := Nat.le_trans h.nodes (hh.size ▸ Nat.le_succ _)
  slots := hh.slots ▸ h.slots
  sinks := by
    rw [hh.offers.1]
    exact h.sinks
  serials := hh.offers.2 ▸ h.serials
  sink id hid := by
    rw [Scene.sink, hh.offers.1]
    exact h.sink id hid
  slot i hi := by
    have hnot : i ∉ slotsOf es := fun hm => Nat.not_lt.2 (hb.slots i hm).1 hi
    rw [hh.slot, if_neg hnot, h.slot i hi]
  pending n hn hg := by rw [hh.pending, if_neg (hb.node_notMem hn hg), h.pending n hn hg]

/-- What is told when the host element is created: whatever waits on the given nodes, and else only
what is new. -/
theorem Brings.host_calls {s : Scene} {w w' : World Log} {given : List NodeId} {es : List Element}
    (hb : Brings s w.scene given es) (hh : Engine.HostCreated w w' es) :
    ∃ calls, w'.program = w.program ++ calls ∧
      (∀ n ∈ flatten es, ∀ x ∈ (w.scene.node n).pending, (x.answer, w.scene.tree.size) ∈ calls) ∧
      ∀ a p, (a, p) ∈ calls → s.serials ≤ a.serial ∨
        p = w.scene.tree.size ∧ ∃ n ∈ given, ∃ x ∈ (w.scene.node n).pending, x.answer = a := by
  refine ⟨_, hh.program, fun n hn x hx => ?_, fun a p hm => ?_⟩
  · have hgather : x ∈ gather (fun n => (w.scene.node n).pending) (flatten es) :=
      mem_gather.2 ⟨n, hn, hx⟩
    exact List.mem_map.2 ⟨x, List.mem_append_left _ hgather, rfl⟩
  · obtain ⟨x, hx, heq⟩ := List.mem_map.1 hm
    cases heq
    rcases List.mem_append.1 hx with hx | hx
    · obtain ⟨n, hn, hx⟩ := mem_gather.1 hx
      rcases hb.nodes n hn with hg | ⟨-, -, hnew⟩
      · exact .inr ⟨rfl, n, hg, x, hx, rfl⟩
      · exact .inl (hnew x hx)
    · obtain ⟨i, hi, hx⟩ := mem_gather.1 hx
      exact .inl ((hb.slots i hi).2.2 x hx)

end Scene

namespace Evolves

variable {w w' : World Log} {ts : List Built}

theorem brings (h : Evolves w w' ts) (given : List NodeId) :
    w.scene.Brings w'.scene given (elements ts) := by
  have hnew : ∀ x ∈ w'.scene.pendingOn (elements ts), w.scene.serials ≤ x.answer.serial := by
    intro x hx
    have huntold := h.waits.mem_iff.1 (List.mem_map.2 ⟨x, hx, rfl⟩)
    exact (h.answers_new _ (List.mem_map.2 ⟨_, mem_untold.1 huntold, rfl⟩)).1
  refine ⟨fun n hn => .inr ⟨(h.fresh.nodes n hn).1, (h.fresh.nodes n hn).2, fun x hx => hnew x ?_⟩,
    fun i hi => ⟨(h.fresh.slots i hi).1, (h.fresh.slots i hi).2, fun x hx => hnew x ?_⟩⟩
  · exact List.mem_append_left _ (List.mem_flatMap.2 ⟨n, hn, hx⟩)
  · exact List.mem_append_right _ (List.mem_flatMap.2 ⟨i, hi, hx⟩)

theorem calls_new (h : Evolves w w' ts) :
    ∃ calls, w'.program = w.program ++ calls ∧ ∀ a p, (a, p) ∈ calls →
      w.scene.serials ≤ a.serial := by
  obtain ⟨calls, hprogram, hcalls⟩ := h.calls
  refine ⟨calls, hprogram, fun a p hm => ?_⟩
  have htold := mem_told.1 (hcalls.mem_iff.1 hm)
  exact (h.answers_new a (List.mem_map.2 ⟨_, htold, rfl⟩)).1

end Evolves

theorem Item.buildAll_brings (engine : Engine) (plan : Component → Plan) (children : List NodeId)
    (items : List Item) (w : World Log) :
    ∃ es w' calls, Item.buildAll engine plan children items w = (.ok es, w') ∧
      w.scene.Keeps w'.scene ∧ w.scene.Brings w'.scene children es ∧
      w'.program = w.program ++ calls ∧
      (∀ a p, (a, p) ∈ calls → w.scene.serials ≤ a.serial) ∧
      ∀ (i : Nat) n, .given i ∈ items → children[i]? = some n → n ∈ flatten es := by
  induction items generalizing w with
  | nil =>
    have hnone : w.scene.Brings w.scene children (List.map .node []) :=
      w.scene.brings_given (by simp)
    exact ⟨[], w, [], rfl, .refl _, hnone, by simp, by simp, by simp⟩
  | cons item rest ih =>
    cases item with
    | given i =>
      obtain ⟨es, w', calls, hrest, hkeeps, hbrings, hprogram, hcalls, hgiven⟩ := ih w
      have hone : w.scene.Brings w.scene children (children[i]?.toList.map .node) :=
        w.scene.brings_given fun n hn => List.mem_of_getElem? (by simpa using hn)
      refine ⟨children[i]?.toList.map .node ++ es, w', calls, by rw [Item.buildAll, hrest], hkeeps,
        hone.append hbrings ((Keeps.refl _).spares []) (hkeeps.spares []) (by simp),
        hprogram, hcalls,
        fun j n hj hn => ?_⟩
      rw [flatten_append, flatten_nodes, List.mem_append]
      rcases List.mem_cons.1 hj with heq | hj
      · cases heq
        exact .inl (by simp [hn])
      · exact .inr (hgiven j n hj hn)
    | made b =>
      obtain ⟨t, w₁, hbuild, -, h⟩ := b.build_evolves engine plan w
      obtain ⟨calls₁, hprogram₁, hcalls₁⟩ := h.calls_new
      obtain ⟨es, w₂, calls₂, hrest, hkeeps, hbrings, hprogram₂, hcalls₂, hgiven⟩ := ih w₁
      refine ⟨t.element :: es, w₂, calls₁ ++ calls₂, ?_, h.keeps.trans hkeeps,
        (h.brings children).append hbrings (h.keeps.spares []) (hkeeps.spares []) (by simp), ?_,
        fun a p hm => ?_,
        fun j n hj hn => ?_⟩
      · rw [Item.buildAll, hbuild]
        simp only [hrest]
      · rw [hprogram₂, hprogram₁, List.append_assoc]
      · rcases List.mem_append.1 hm with hm | hm
        · exact hcalls₁ a p hm
        · exact Nat.le_trans h.keeps.serials (hcalls₂ a p hm)
      · rw [flatten_cons, List.mem_append]
        rcases List.mem_cons.1 hj with heq | hj
        · cases heq
        · exact .inr (hgiven j n hj hn)

/-- What was built around the children: they are in the node `q`, which is so many steps below the
result `r`, and what waited on them was told `q`. -/
structure Nested (w w' : World Log) (children : List NodeId) (depth : Nat) (q r : NodeId) :
    Prop where
  spares : w.scene.Spares w'.scene children
  new : w.scene.tree.size ≤ q
  le : q ≤ r
  lt : r < w'.scene.tree.size
  eq_iff : q = r ↔ depth = 0
  result : (w'.scene.node r).pending = []
  parent : ∀ n ∈ children, w'.scene.tree.parent n = some q
  pending : ∀ n ∈ children, (w'.scene.node n).pending = []
  -- The way up is the same in every tree with the same parents of the nodes below the result.
  up : ∀ t : Tree, (∀ m, w.scene.tree.size ≤ m → m < r → t.parent m = w'.scene.tree.parent m) →
    t.up depth q = some r
  calls : ∃ calls, w'.program = w.program ++ calls ∧
    (∀ n ∈ children, ∀ x ∈ (w.scene.node n).pending, (x.answer, q) ∈ calls) ∧
    ∀ a p, (a, p) ∈ calls → w.scene.serials ≤ a.serial ∨
      p = q ∧ ∃ n ∈ children, ∃ x ∈ (w.scene.node n).pending, x.answer = a

theorem Nested.here {w w₁ w₂ : World Log} {children : List NodeId} {es : List Element} {calls : Log}
    (hk : ∀ n ∈ children, n < w.scene.tree.size) (hkeeps : w.scene.Keeps w₁.scene)
    (hb : w.scene.Brings w₁.scene children es) (hprogram : w₁.program = w.program ++ calls)
    (hcalls : ∀ a p, (a, p) ∈ calls → w.scene.serials ≤ a.serial)
    (hin : ∀ n ∈ children, n ∈ flatten es)
    (h : Engine.HostCreated w₁ w₂ es) :
    Nested w w₂ children 0 w₁.scene.tree.size w₁.scene.tree.size where
  spares := (hkeeps.spares children).host hb h
  new := hkeeps.nodes
  le := Nat.le_refl _
  lt := h.size ▸ Nat.lt_succ_self _
  eq_iff := by simp
  result := by
    have hempty : (w₁.scene.node w₁.scene.tree.size).pending = [] :=
      w₁.scene.pending_of_size_le _ (Nat.le_refl _)
    rw [h.pending, hempty, ite_self]
  parent n hn := by rw [h.parent, if_pos (hin n hn)]
  pending n hn := by rw [h.pending, if_pos (hin n hn)]
  up t _ := rfl
  calls := by
    obtain ⟨calls', hprogram', htold, hcalls'⟩ := hb.host_calls h
    refine ⟨calls ++ calls', by rw [hprogram', hprogram, List.append_assoc], fun n hn x hx => ?_,
      fun a p hm => ?_⟩
    · rw [← hkeeps.pending n (hk n hn)] at hx
      exact List.mem_append_right _ (htold n (hin n hn) x hx)
    · rcases List.mem_append.1 hm with hm | hm
      · exact .inl (hcalls a p hm)
      · rcases hcalls' a p hm with hnew | ⟨hp, n, hn, x, hx, ha⟩
        · exact .inl hnew
        · exact .inr ⟨hp, n, hn, x, hkeeps.pending n (hk n hn) ▸ hx, ha⟩

theorem mem_flatten_around {xs ys : List Element} {r n : NodeId} :
    n ∈ flatten (xs ++ .node r :: ys) ↔ n ∈ flatten xs ∨ n = r ∨ n ∈ flatten ys := by
  simp [flatten_append, flatten, Element.nodes]

section

variable {w w₁ w₂ w₃ : World Log} {children : List NodeId} {first last : List Built} {depth : Nat}
  {q r : NodeId} (hk : ∀ n ∈ children, n < w.scene.tree.size) (hfirst : Evolves w w₁ first)
  (hinner : Nested w₁ w₂ children depth q r) (hlast : Evolves w₂ w₃ last)

include hk hfirst hinner hlast

theorem Nested.brings_around : w.scene.Brings w₃.scene []
    (elements first ++ .node r :: elements last) := by
  have hresult : w₁.scene.Brings w₂.scene [] [.node r] := by
    refine ⟨fun n hn => .inr ?_, fun i hi => by cases hi⟩
    obtain rfl : n = r := by simpa [flatten, Element.nodes] using hn
    refine ⟨Nat.le_trans hinner.new hinner.le, hinner.lt, fun x hx => ?_⟩
    rw [hinner.result] at hx
    cases hx
  have hk₁ : ∀ n ∈ children, n < w₁.scene.tree.size :=
    fun n hn => Nat.lt_of_lt_of_le (hk n hn) hfirst.keeps.nodes
  have hrest := hresult.append (hlast.brings []) hinner.spares (hlast.keeps.spares _) hk₁
  exact (hfirst.brings []).append hrest (hfirst.keeps.spares _)
    (hinner.spares.trans (hlast.keeps.spares _)) hk

theorem Nested.within {w₄ : World Log}
    (h : Engine.HostCreated w₃ w₄ (elements first ++ .node r :: elements last)) :
    Nested w w₄ children (depth + 1) q w₃.scene.tree.size := by
  have hb := Nested.brings_around hk hfirst hinner hlast
  have hspares : w.scene.Spares w₃.scene children :=
    (hfirst.keeps.spares _).trans (hinner.spares.trans (hlast.keeps.spares _))
  have hr : r < w₃.scene.tree.size := Nat.lt_of_lt_of_le hinner.lt hlast.keeps.nodes
  have hq : q < w₃.scene.tree.size := Nat.lt_of_le_of_lt hinner.le hr
  have hk₂ : ∀ n ∈ children, n < w₂.scene.tree.size := fun n hn =>
    Nat.lt_of_lt_of_le (hk n hn) (hfirst.keeps.nodes.trans hinner.spares.nodes)
  have hnot : ∀ n ∈ children,
      n ∉ flatten (elements first ++ .node r :: elements last) := fun n hn =>
    hb.node_notMem (hk n hn) List.not_mem_nil
  constructor
  case spares =>
    refine hspares.host ⟨fun n hn => (hb.nodes n hn).imp_left fun hnone => ?_, hb.slots⟩ h
    cases hnone
  case new => exact Nat.le_trans hfirst.keeps.nodes hinner.new
  case le => exact Nat.le_of_lt hq
  case lt => exact h.size ▸ Nat.lt_succ_self _
  case eq_iff => simp [Nat.ne_of_lt hq]
  case result =>
    have hempty : (w₃.scene.node w₃.scene.tree.size).pending = [] :=
      w₃.scene.pending_of_size_le _ (Nat.le_refl _)
    rw [h.pending, hempty, ite_self]
  case parent =>
    intro n hn
    rw [h.parent, if_neg (hnot n hn), hlast.keeps.parent n (hk₂ n hn), hinner.parent n hn]
  case pending =>
    intro n hn
    rw [h.pending, if_neg (hnot n hn), hlast.keeps.pending n (hk₂ n hn), hinner.pending n hn]
  case up =>
    intro t ht
    have hw : w.scene.tree.size ≤ r := hfirst.keeps.nodes.trans (Nat.le_trans hinner.new hinner.le)
    have htop : t.parent r = some w₃.scene.tree.size := by
      rw [ht r hw hr, h.parent, if_pos (mem_flatten_around.2 (.inr (.inl rfl)))]
    refine Tree.up_add (hinner.up t fun m hge hlt => ?_) (Tree.up_succ_eq_some.2 ⟨_, htop, rfl⟩)
    -- Between the first elements and the result nothing gets a new parent.
    have hlt₂ : m < w₂.scene.tree.size := Nat.lt_trans hlt hinner.lt
    have hout : m ∉ flatten (elements first ++ .node r :: elements last) := by
      intro hm
      rcases mem_flatten_around.1 hm with hm | hm | hm
      · exact Nat.not_lt.2 hge (hfirst.fresh.nodes m hm).2
      · exact Nat.ne_of_lt hlt hm
      · exact hlast.fresh.node_notMem hlt₂ hm
    rw [ht m (Nat.le_trans hfirst.keeps.nodes hge) (Nat.lt_trans hlt hr), h.parent, if_neg hout,
      hlast.keeps.parent m hlt₂]
  case calls =>
    obtain ⟨calls₁, hprogram₁, hcalls₁⟩ := hfirst.calls_new
    obtain ⟨calls₂, hprogram₂, htold, hcalls₂⟩ := hinner.calls
    obtain ⟨calls₃, hprogram₃, hcalls₃⟩ := hlast.calls_new
    obtain ⟨calls₄, hprogram₄, -, hcalls₄⟩ := hb.host_calls h
    refine ⟨calls₁ ++ calls₂ ++ calls₃ ++ calls₄, ?_, fun n hn x hx => ?_, fun a p hm => ?_⟩
    · rw [hprogram₄, hprogram₃, hprogram₂, hprogram₁]
      simp only [List.append_assoc]
    · rw [← hfirst.keeps.pending n (hk n hn)] at hx
      simp [htold n hn x hx]
    · simp only [List.mem_append] at hm
      rcases hm with ((hm | hm) | hm) | hm
      · exact .inl (hcalls₁ a p hm)
      · rcases hcalls₂ a p hm with hnew | ⟨hp, n, hn, x, hx, ha⟩
        · exact .inl (Nat.le_trans hfirst.keeps.serials hnew)
        · exact .inr ⟨hp, n, hn, x, hfirst.keeps.pending n (hk n hn) ▸ hx, ha⟩
      · exact .inl (Nat.le_trans (hfirst.keeps.serials.trans hinner.spares.serials)
          (hcalls₃ a p hm))
      · refine .inl ((hcalls₄ a p hm).resolve_right fun ⟨_, n, hn, _⟩ => ?_)
        cases hn

end

theorem Nest.build_nested (engine : Engine) (plan : Component → Plan) {children : List NodeId}
    (nest : Nest) (hp : nest.PlacesAll children.length) {w : World Log}
    (hk : ∀ n ∈ children, n < w.scene.tree.size) :
    ∃ q r w', nest.build engine plan children w = (.ok (.node r), w') ∧
      Nested w w' children nest.depth q r := by
  induction nest generalizing w with
  | here tag config items =>
    obtain ⟨es, w₁, calls, hitems, hkeeps, hbrings, hprogram, hcalls, hgiven⟩ :=
      Item.buildAll_brings engine plan children items w
    have hknown : ∀ n ∈ flatten es, n < w₁.scene.tree.size := fun n hn =>
      (hbrings.nodes n hn).elim (fun hg => Nat.lt_of_lt_of_le (hk n hg) hkeeps.nodes) fun hnew =>
        hnew.2.1
    obtain ⟨w₂, hcreate, hhost⟩ :=
      Engine.create_tag_of_records (records_performing plan) engine tag config.sound hknown
    have hin : ∀ n ∈ children, n ∈ flatten es := by
      intro n hn
      obtain ⟨i, hi, heq⟩ := List.mem_iff_getElem.1 hn
      exact hgiven i n (hp i hi) (heq ▸ List.getElem?_eq_getElem hi)
    refine ⟨_, _, w₂, ?_, Nested.here hk hkeeps hbrings hprogram hcalls hin hhost⟩
    rw [build, hitems]
    exact hcreate
  | within tag config before inner after ih =>
    obtain ⟨first, w₁, hbefore, -, hfirst⟩ := Blueprint.buildAll_evolves engine plan before w
    obtain ⟨q, r, w₂, hbuild, hinner⟩ :=
      ih hp fun n hn => Nat.lt_of_lt_of_le (hk n hn) hfirst.keeps.nodes
    obtain ⟨last, w₃, hafter, -, hlast⟩ := Blueprint.buildAll_evolves engine plan after w₂
    have hb := Nested.brings_around hk hfirst hinner hlast
    have hknown : ∀ n ∈ flatten (elements first ++ .node r :: elements last),
        n < w₃.scene.tree.size := fun n hn =>
      (hb.nodes n hn).elim (fun hnone => by cases hnone) fun hnew => hnew.2.1
    obtain ⟨w₄, hcreate, hhost⟩ :=
      Engine.create_tag_of_records (records_performing plan) engine tag config.sound hknown
    refine ⟨q, _, w₄, ?_, Nested.within hk hfirst hinner hlast hhost⟩
    rw [build, hbefore]
    simp only [hbuild, hafter]
    exact hcreate

theorem Nested.settle {w w₂ : World Log} {s : Scene} {answer : Option Answer}
    {children : List Element} {depth : Nat} {q r : NodeId}
    (ho : Registration.Offered w.scene s w.scene.sinks.size answer)
    (hcur : w.scene.sinks.size < s.sinks.size) (hk : ∀ e ∈ children, w.scene.Knows e)
    (h : Nested { w with scene := s } w₂ (flatten children) depth q r)
    (name : Option String) (request : Option RefRequest) :
    ∃ s', w₂.scene.settle name request w.scene.sinks.size (.node r) = (.ok (.node r), s') ∧
      Tree.SameLinks w₂.scene.tree s'.tree ∧
      (s'.collect (.node r) (flatten children) (slotsOf children)).1 =
        gather w.scene.slot (slotsOf children) := by
  have hknown : w₂.scene.Knows (.node r) := by
    refine ⟨fun n hn => ?_, fun f hf => by cases hf⟩
    rw [List.mem_singleton.1 hn]
    exact h.lt
  have hmethods : (w₂.scene.sink w.scene.sinks.size).methods = .empty := by
    rw [h.spares.sink _ hcur]
    exact ho.methods
  obtain ⟨s', hsettle, hset⟩ := settled_of_no_methods hmethods name request hknown
  have hsize : w.scene.tree.size ≤ r := by
    rw [← ho.tree]
    exact Nat.le_trans h.new h.le
  have hcleared : ∀ n ∈ flatten children, (s'.node n).pending = [] := by
    intro n hn
    have hne : (Element.node r).node? ≠ some n := by
      intro hsome
      cases hsome
      exact Nat.not_lt.2 hsize (lt_size_of_knows hk _ hn)
    rw [hset.pending, h.pending n hn, if_neg hne, List.append_nil]
  have hslot : ∀ i ∈ slotsOf children, s'.slot i = w.scene.slot i := by
    intro i hi
    obtain ⟨f, hf, rfl⟩ := List.mem_map.1 hi
    obtain ⟨e, he, hf⟩ := mem_collectFragments.1 hf
    have hlt : f.slot < s.slots.size := by
      rw [ho.slots]
      exact (hk e he).2 f hf
    rw [hset.slot, if_neg (by simp [Element.fragment?]), List.append_nil, h.spares.slot _ hlt]
    simp only [slot, ho.slots]
  exact ⟨s', hsettle, hset.links, by rw [collect_of_cleared hcleared, gather_congr _ hslot]⟩

/-- A component is created whose body places all of its children in a host element `q` of its result
`r`. What waited on a child that is a node has then been told `q`. What waited on a fragment among
the children has been told `r`, so it was told the parent of the nodes of the fragment just when
there is no further host element between. -/
theorem Nest.create_tells_result (engine : Engine) (plan : Component → Plan)
    (registration : Registration) (nest : Nest) (c : Component) (config : SoundConfig)
    {children : List Element} {w : World Log}
    (hk : ∀ e ∈ children, w.scene.Knows e) (hp : nest.PlacesAll (flatten children).length) :
    ∃ q r w' during after,
      engine.create (nesting plan registration nest) (.component c) config.config children w =
        (.ok (.node r), w') ∧
      (∀ n ∈ flatten children, w'.scene.tree.parent n = some q) ∧
      w'.scene.tree.up nest.depth q = some r ∧
      (q = r ↔ nest.depth = 0) ∧ w'.program = w.program ++ during ++ after ∧
      (∀ n ∈ flatten children, ∀ x ∈ (w.scene.node n).pending, (x.answer, q) ∈ during) ∧
      (∀ a p, (a, p) ∈ during → w.scene.serials ≤ a.serial ∨
        p = q ∧ ∃ n ∈ flatten children, ∃ x ∈ (w.scene.node n).pending, x.answer = a) ∧
      ∀ a p, (a, p) ∈ after ↔ p = r ∧ ∃ f ∈ collectFragments children, ∃ x ∈ w.scene.slot f.slot,
        x.answer = a := by
  let s := registration.offer w.scene.sinks.size (w.scene.enter c (flatten children))
  obtain ⟨ho, hcur⟩ := registration.offered_enter w.scene c (flatten children)
  have hbefore : ∀ n ∈ flatten children, n < s.tree.size := by
    rw [ho.tree]
    exact lt_size_of_knows hk
  have hpending : ∀ n, (s.node n).pending = (w.scene.node n).pending :=
    fun n => by simp only [s, node, ho.tree]
  obtain ⟨q, r, w₂, hbuild, h⟩ :=
    nest.build_nested engine plan hp (w := { w with scene := s }) hbefore
  have hbody : (nesting plan registration nest).render c
    (engine.propsIn config.config (flatten children) w.scene)
      { w with scene := w.scene.enter c (flatten children) } = (.ok (.node r), w₂) := hbuild
  obtain ⟨s', hsettle, hlinks, hgot⟩ := Nested.settle ho hcur hk h c.name config.request
  obtain ⟨during, hprogram, htold, hduring⟩ := h.calls
  rw [Engine.create_component, config.sound]
  simp only [hbody, hsettle, hgot,
    Engine.deliver_node_of_records (records_nesting plan registration nest)]
  have hdrained :=
    s'.drained_announce r (flatten children) (slotsOf children)
      (gather w.scene.slot (slotsOf children))
  generalize Scene.announce _ _ _ = t at hdrained ⊢
  have hparent : ∀ n, t.tree.parent n = w₂.scene.tree.parent n :=
    fun n => by rw [hdrained.links.parent, hlinks.parent]
  refine ⟨q, r, _, during, _, rfl, fun n hn => ?_, h.up t.tree fun m _ _ => hparent m,
    h.eq_iff, by rw [hprogram], fun n hn x hx => ?_, fun a p hm => ?_, fun a p => ?_⟩
  · rw [hparent, h.parent n hn]
  · exact htold n hn x (hpending n ▸ hx)
  · rcases hduring a p hm with hnew | ⟨hq, n, hn, x, hx, ha⟩
    · exact .inl (Nat.le_trans ho.serials hnew)
    · exact .inr ⟨hq, n, hn, x, hpending n ▸ hx, ha⟩
  · simp only [List.mem_map, mem_gather, slotsOf, Prod.mk.injEq]
    constructor
    · rintro ⟨x, ⟨_, ⟨f, hf, rfl⟩, hx⟩, ha, hr⟩
      exact ⟨hr.symm, f, hf, x, hx, ha⟩
    · rintro ⟨rfl, f, hf, x, hx, ha⟩
      exact ⟨x, ⟨_, ⟨f, hf, rfl⟩, hx⟩, ha, rfl⟩

def waitingAround : World Log :=
  ⟨⟨⟨#[.ofKind (.text "a")]⟩, #[[⟨1, .callback ⟨0, "f", none⟩⟩]], #[], #[], #[], 2, ⟨.off, []⟩⟩, []⟩

def plainConfig : SoundConfig := ⟨.empty, none, rfl⟩

def paragraphInside : Nest := .within "div" plainConfig [] (.here "p" plainConfig [.given 0]) []

theorem Nest.create_tells_result_when_wrapped :
    ∃ (w w' : World Log) (x : Notice) (nest : Nest) (q r : NodeId), w.scene.slot 0 = [x] ∧
      nest.depth = 1 ∧ Engine.usual.create (nesting (fun _ => ⟨.none, .fragment⟩) .none nest)
      (.component ⟨none, "c"⟩) .empty
        [.fragment 0 [.node 0]] w = (.ok (.node r), w') ∧
      w'.scene.tree.parent 0 = some q ∧ w'.scene.tree.parent q = some r ∧ q ≠ r ∧
      (x.answer, r) ∈ w'.program ∧
      (x.answer, q) ∉ w'.program := by
  have hknown : ∀ e ∈ [Element.fragment 0 [.node 0]], waitingAround.scene.Knows e := by
    simp [waitingAround, Scene.knows_fragment_iff, Scene.knows_node_iff, Tree.size]
  have hplaces : paragraphInside.PlacesAll (flatten [.fragment 0 [.node 0]]).length := by
    intro i hi
    obtain rfl : i = 0 := by simpa [flatten, Element.nodes] using hi
    exact List.mem_singleton.2 rfl
  obtain ⟨q, r, w', during, after, hcreate, hparent, hup, heq, hprogram, -, hduring, hafter⟩ :=
    paragraphInside.create_tells_result .usual (fun _ => ⟨.none, .fragment⟩) .none ⟨none, "c"⟩
      plainConfig hknown hplaces
  have hne : q ≠ r := fun h => absurd (heq.1 h) (by decide)
  obtain ⟨p, hp, hr⟩ := Tree.up_succ_eq_some.1 hup
  cases hr
  have hslot : waitingAround.scene.slot 0 = [⟨1, .callback ⟨0, "f", none⟩⟩] := rfl
  have htold : (.callback ⟨0, "f", none⟩, r) ∈ after :=
    (hafter _ _).2 ⟨rfl, ⟨0, [.node 0]⟩, by simp [collectFragments, Element.fragments], _,
      hslot ▸ List.mem_singleton_self _, rfl⟩
  refine ⟨waitingAround, w', _, paragraphInside, q, r, hslot, rfl, hcreate,
    hparent 0 (by simp [flatten, Element.nodes]), hp, hne, ?_, ?_⟩
  · rw [hprogram]
    exact List.mem_append_right _ htold
  · rw [hprogram]
    intro hm
    rcases List.mem_append.1 hm with hm | hm
    · -- The answer is not new, and nothing waits on the text itself.
      rcases hduring _ _ hm with hnew | ⟨-, n, hn, y, hy, -⟩
      · exact absurd hnew (by decide)
      · obtain rfl : n = 0 := by simpa [flatten, Element.nodes] using hn
        cases hy
    · exact hne ((hafter _ _).1 hm).1

end UiTree
