import UiTree.Proofs.Dict
import UiTree.Proofs.Scene.Refs
import UiTree.Proofs.TreeInvariant
import UiTree.Script.Interpreter
set_option autoImplicit false

/-!
What a script holds has been made: the nodes and slots in its variables, configs, events and frames
are those of the scene. As the tables of a scene only grow, this stays so whatever happens to the
scene, and it is the only thing that the steps of a course ask of the code.
-/

namespace UiTree

def Dict.All {α : Type} (P : α → Prop) (d : Dict α) : Prop := ∀ key a, d.get? key = some a → P a

namespace Dict.All

variable {α : Type} {P Q : α → Prop} {d : Dict α}

theorem empty : (Dict.empty : Dict α).All P := by
  intro key a h
  cases h

theorem set (h : d.All P) (key : String) {a : α} (ha : P a) : (d.set key a).All P := by
  intro other a' h'
  by_cases hk : other = key
  · subst hk
    rw [Dict.get?_set_self] at h'
    cases h'
    exact ha
  · rw [d.get?_set_of_ne a hk] at h'
    exact h other a' h'

theorem erase (h : d.All P) (key : String) : (d.erase key).All P := by
  intro other a h'
  by_cases hk : other = key
  · subst hk
    rw [Dict.get?_erase_self] at h'
    cases h'
  · rw [d.get?_erase_of_ne hk] at h'
    exact h other a h'

theorem mono (h : d.All P) (hPQ : ∀ a, P a → Q a) : d.All Q :=
  fun key a ha => hPQ a (h key a ha)

theorem ofList {pairs : List (String × α)} (h : ∀ p ∈ pairs, P p.2) :
    (Dict.ofList pairs).All P := by
  induction pairs using List.reverseRecOn with
  | nil => exact empty
  | append_singleton rest p ih =>
    rw [Dict.ofList_concat]
    exact (ih fun q hq => h q (by simp [hq])).set p.1 (h p (by simp))

theorem getD (h : d.All P) (key : String) {a : α} (ha : P a) : P ((d.get? key).getD a) := by
  cases hk : d.get? key with
  | none => exact ha
  | some a' => exact h key a' hk

end Dict.All

mutual

/-- The elements that a value holds, through lists; a node counts as an element. -/
def Value.elements : Value → List Element
  | .node n => [.node n]
  | .element e => [e]
  | .list items => elementsOf items
  | _ => []

def elementsOf : List Value → List Element
  | [] => []
  | v :: rest => v.elements ++ elementsOf rest

end

namespace Scene

variable {s s' : Scene}

def Has (s : Scene) (v : Value) : Prop := ∀ e ∈ v.elements, s.Knows e

abbrev HasAll (s : Scene) (c : Config) : Prop := c.All s.Has

theorem has_node_iff {n : NodeId} : s.Has (.node n) ↔ n < s.tree.size := by
  simp [Has, Value.elements, knows_node_iff]

theorem has_element_iff {e : Element} : s.Has (.element e) ↔ s.Knows e := by
  simp [Has, Value.elements]

theorem has_list_iff {items : List Value} : s.Has (.list items) ↔ ∀ v ∈ items, s.Has v := by
  simp only [Has, Value.elements]
  induction items with
  | nil => simp [elementsOf]
  | cons v rest ih => simp [elementsOf, or_imp, forall_and, ← ih]

theorem has_of_elements_nil {v : Value} (h : v.elements = []) : s.Has v := by
  intro e he
  rw [h] at he
  cases he

theorem Has.list {v : Value} {items : List Value} (h : s.Has v) (hv : v.list? = some items) :
    ∀ u ∈ items, s.Has u := by
  cases v <;> cases hv
  exact has_list_iff.1 h

theorem Has.element {v : Value} {e : Element} (h : s.Has v) (hv : v.element? = some e) :
    s.Knows e := by
  cases v <;> cases hv
  · exact h _ (List.mem_singleton_self _)
  · exact has_element_iff.1 h

theorem Has.node {v : Value} {n : NodeId} (h : s.Has v) (hv : v.node? = some n) :
    n < s.tree.size := by
  refine knows_node_iff.1 (h.element (v := v) ?_)
  match v, hv with
  | .node _, rfl => rfl
  | .element (.node _), rfl => rfl

theorem Extends.has (hx : s.Extends s') {v : Value} (h : s.Has v) : s'.Has v :=
  fun e he => hx.knows (h e he)

theorem Extends.hasAll (hx : s.Extends s') {c : Config} (h : s.HasAll c) : s'.HasAll c :=
  h.mono fun _ => hx.has

end Scene

namespace Script

open Relation

structure Frame.Known (s : Scene) (f : Frame) : Prop where
  children : ∀ n ∈ f.props.children, n < s.tree.size
  config : s.HasAll f.props.config
  locals : s.HasAll f.locals

def EventKnown (s : Scene) (e : Event) : Prop := e.target < s.tree.size ∧ e.current < s.tree.size

structure Memory.Known (s : Scene) (m : Memory) : Prop where
  globals : s.HasAll m.globals
  frames : ∀ f ∈ m.frames, f.Known s
  configs : m.configs.All s.HasAll
  events : m.events.All (EventKnown s)

def Role.Known (s : Scene) : Role → Prop
  | .body => True
  | .handler e => EventKnown s e
  | .method args => ∀ v ∈ args, s.Has v
  | .gotParent parent => parent < s.tree.size

section

variable {s s' : Scene}

theorem EventKnown.mono {e : Event} (h : EventKnown s e) (hx : s.Extends s') : EventKnown s' e :=
  ⟨Nat.lt_of_lt_of_le h.1 hx.nodes, Nat.lt_of_lt_of_le h.2 hx.nodes⟩

theorem Frame.Known.mono {f : Frame} (h : f.Known s) (hx : s.Extends s') : f.Known s' :=
  ⟨fun n hn => Nat.lt_of_lt_of_le (h.children n hn) hx.nodes, hx.hasAll h.config,
    hx.hasAll h.locals⟩

theorem Memory.Known.mono {m : Memory} (h : m.Known s) (hx : s.Extends s') : m.Known s' :=
  ⟨hx.hasAll h.globals, fun f hf => (h.frames f hf).mono hx, h.configs.mono fun _ => hx.hasAll,
    h.events.mono fun _ he => he.mono hx⟩

/-- Only the variables, frames, configs and events hold what has to be known. -/
theorem Memory.Known.elsewhere {m : Memory} (h : m.Known s) (refs : Dict RefsId)
    (sinks : Dict SinkId) (documents : Dict Document) (engines : Dict Engine)
    (tables : Dict Listeners) (weak : Bool) (unseen : List NodeId) (held : List (List NodeId)) :
    Memory.Known s { m with refs, sinks, documents, engines, tables, weak, unseen, held } :=
  ⟨h.globals, h.frames, h.configs, h.events⟩

theorem Role.Known.mono {r : Role} (h : r.Known s) (hx : s.Extends s') : r.Known s' := by
  cases r with
  | body => trivial
  | handler e => exact EventKnown.mono h hx
  | method args => exact fun v hv => hx.has (h v hv)
  | gotParent parent => exact Nat.lt_of_lt_of_le h hx.nodes

end

/-- A world in which code can run: the scene is sound, and the script holds nothing that has not
been made. -/
structure InOrder (w : World Memory) : Prop where
  links : w.scene.tree.WellFormed
  refs : w.scene.RefsKnown
  memory : w.program.Known w.scene

namespace InOrder

variable {w : World Memory}

theorem start (engine : Engine) (level : Level) (weak : Bool) :
    InOrder ⟨.empty level, .empty engine weak⟩ where
  links := .empty
  refs id key e h := by
    have hnone : ((Scene.empty level).refMap id).get? key = none := by
      simp [Scene.empty, Scene.refMap]
    rw [hnone] at h
    cases h
  memory := ⟨.empty, by simp [Memory.empty], .empty, .empty⟩

theorem stepped (h : InOrder w) {fs fs' : List Course.Frame} {l l' : Course.Ledger} {s : Scene}
    (hs : Course.Step ⟨w.scene, fs, l⟩ ⟨s, fs', l'⟩) : InOrder { w with scene := s } :=
  ⟨hs.wellFormed h.links, hs.refsKnown h.refs, h.memory.mono hs.grows⟩

theorem act (h : InOrder w) {s : Scene} (ha : Course.Act w.scene s) :
    InOrder { w with scene := s } := by
  have hstep : Course.Step ⟨w.scene, [.code], ⟨[], []⟩⟩ ⟨s, [.code], ⟨[], []⟩⟩ := .act ha
  exact h.stepped hstep

theorem acts (h : InOrder w) {s : Scene} (ha : ReflTransGen Course.Act w.scene s) :
    InOrder { w with scene := s } ∧ w.scene.Extends s := by
  induction ha with
  | refl => exact ⟨h, .refl _⟩
  | tail _ hlast ih => exact ⟨ih.1.act hlast, ih.2.trans hlast.grows⟩

end InOrder

end Script

end UiTree
