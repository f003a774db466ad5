import UiTree.Proofs.Recording
set_option autoImplicit false

/-!
Blueprints: expressions that build elements from the inside out. A blueprint is a text, a host
element, a plain fragment or a component around its items. A component may register to be told of
its parent, and it returns its children either as a fragment or as the children of one host element.

What a blueprint became is kept as a tree of its own, from which the nearest host element around
each registration can be read off. A host element around a list of parts becomes the nearest one for
just those registrations that had none.
-/

namespace UiTree

/-- A config whose ref, if it has one, is a request. -/
structure SoundConfig where
  config : Config
  request : Option RefRequest
  sound : config.refRequest = .ok request

/-- Whether and how a component registers. -/
inductive Registration where
  | none
  | callback (code : String)
  | method (code : String)

def Registration.answer (serial : Nat) : Registration → Option Answer
  | .none => .none
  | .callback code => some (.callback ⟨serial, code, .none⟩)
  | .method code => some (.method ⟨serial, code, .none⟩)

def Registration.offer (r : Registration) (cur : SinkId) (s : Scene) : Scene :=
  match r.answer s.serials with
  | some (.callback c) => s.takeSerial.2.offerNotice cur c
  | some (.method c) => s.takeSerial.2.offerMethod cur Sink.gotParentName c
  | .none => s

/-- What a component makes of its children. -/
inductive Shape where
  | fragment
  | host (tag : String) (config : SoundConfig)

def Shape.isFragment : Shape → Bool
  | .fragment => true
  | .host _ _ => false

structure Plan where
  registration : Registration
  shape : Shape

def Plan.perform (p : Plan) (props : Props) (w : World Log) : Except Error Element × World Log :=
  let s := p.registration.offer props.cur w.scene
  match p.shape with
  | .fragment =>
    let (e, s) := s.fragment (props.children.map .node)
    (.ok e, { w with scene := s })
  | .host tag config =>
    props.engine.create recording (.tag tag) config.config (props.children.map .node)
      { w with scene := s }

def performing (plan : Component → Plan) : Behaviours Log :=
  { recording with render := fun c => (plan c).perform }

theorem records_performing (plan : Component → Plan) : (performing plan).Records :=
  records_recording

inductive Blueprint where
  | text (content : String)
  | host (tag : String) (config : SoundConfig) (items : List Blueprint)
  | fragment (items : List Blueprint)
  | component (c : Component) (config : SoundConfig) (items : List Blueprint)

/-- What a blueprint became: its element, with what will answer for it, and what its items
became. -/
inductive Built where
  | made (answer : Option Answer) (element : Element) (parts : List Built)

namespace Built

def element : Built → Element
  | .made _ e _ => e

def elements (ts : List Built) : List Element := ts.map element

mutual

/-- All registrations, each with the nearest host element around it, if there is one. -/
def registered (around : Option NodeId) : Built → List (Answer × Option NodeId)
  | .made answer e parts => answer.toList.map (·, around) ++ registeredAll (e.node?.or around) parts

def registeredAll (around : Option NodeId) : List Built → List (Answer × Option NodeId)
  | [] => []
  | t :: rest => t.registered around ++ registeredAll around rest

end

end Built

mutual

/-- The tree of a blueprint: a host element became a node, a fragment a fragment, and a component
what its plan says, with an answer if it registers. -/
def Blueprint.Became (plan : Component → Plan) : Blueprint → Built → Prop
  | .text _, t => ∃ n, t = .made none (.node n) []
  | .host _ _ items, t =>
    ∃ n parts, t = .made none (.node n) parts ∧ Blueprint.BecameAll plan items parts
  | .fragment items, t =>
    ∃ slot parts, t = .made none (.fragment slot (Built.elements parts)) parts ∧
      Blueprint.BecameAll plan items parts
  | .component c _ items, t =>
    ∃ serial e parts, t = .made ((plan c).registration.answer serial) e parts ∧
      e.isFragment = (plan c).shape.isFragment ∧ Blueprint.BecameAll plan items parts

def Blueprint.BecameAll (plan : Component → Plan) : List Blueprint → List Built → Prop
  | [], ts => ts = []
  | b :: rest, ts =>
    ∃ t others, ts = t :: others ∧ b.Became plan t ∧ Blueprint.BecameAll plan rest others

end

section

variable (engine : Engine) (plan : Component → Plan)

mutual

def Blueprint.build : Blueprint → World Log → Except Error Built × World Log
  | .text content, w =>
    let (e, s) := w.scene.textNode content
    (.ok (.made none e []), { w with scene := s })
  | .host tag config items, w =>
    match Blueprint.buildAll items w with
    | (.error e, w) => (.error e, w)
    | (.ok parts, w) =>
      match engine.create (performing plan) (.tag tag) config.config (Built.elements parts) w with
      | (.error e, w) => (.error e, w)
      | (.ok e, w) => (.ok (.made none e parts), w)
  | .fragment items, w =>
    match Blueprint.buildAll items w with
    | (.error e, w) => (.error e, w)
    | (.ok parts, w) =>
      let (e, s) := w.scene.fragment (Built.elements parts)
      (.ok (.made none e parts), { w with scene := s })
  | .component c config items, w =>
    match Blueprint.buildAll items w with
    | (.error e, w) => (.error e, w)
    | (.ok parts, w) =>
      match engine.create (performing plan) (.component c) config.config (Built.elements parts) w
          with
      | (.error e, w) => (.error e, w)
      | (.ok e, w') => (.ok (.made ((plan c).registration.answer w.scene.serials) e parts), w')

def Blueprint.buildAll : List Blueprint → World Log → Except Error (List Built) × World Log
  | [], w => (.ok [], w)
  | b :: rest, w =>
    match b.build w with
    | (.error e, w) => (.error e, w)
    | (.ok t, w) =>
      match Blueprint.buildAll rest w with
      | (.error e, w) => (.error e, w)
      | (.ok ts, w) => (.ok (t :: ts), w)

end

end

open List (Perm)

def told (rs : List (Answer × Option NodeId)) : Log := rs.filterMap fun r => r.2.map (r.1, ·)

def untold (rs : List (Answer × Option NodeId)) : List Answer :=
  (rs.filter fun r => r.2.isNone).map Prod.fst

@[simp] theorem told_append (rs rs' : List (Answer × Option NodeId)) :
    told (rs ++ rs') = told rs ++ told rs' := by
  simp [told]

@[simp] theorem untold_append (rs rs' : List (Answer × Option NodeId)) :
    untold (rs ++ rs') = untold rs ++ untold rs' := by
  simp [untold]

def within (n : NodeId) (r : Answer × Option NodeId) : Answer × Option NodeId :=
  (r.1, r.2.or (some n))

theorem untold_within (n : NodeId) (rs : List (Answer × Option NodeId)) :
    untold (rs.map (within n)) = [] := by
  simp only [untold, List.map_eq_nil_iff, List.filter_eq_nil_iff]
  intro r hr
  obtain ⟨r', -, rfl⟩ := List.mem_map.1 hr
  simp [within]

theorem told_within (n : NodeId) (rs : List (Answer × Option NodeId)) :
    Perm (told (rs.map (within n))) (told rs ++ (untold rs).map (·, n)) := by
  induction rs with
  | nil => exact .refl _
  | cons r rest ih =>
    obtain ⟨a, around⟩ := r
    cases around with
    | none =>
      have hperm := (ih.cons (a, n)).trans List.perm_middle.symm
      simpa [told, untold, within] using hperm
    | some m => simpa [told, untold, within] using ih.cons (a, m)

namespace Built

mutual

theorem registered_some (n : NodeId) (t : Built) :
    t.registered (some n) = (t.registered none).map (within n) := by
  obtain ⟨answer, e, parts⟩ := t
  have hanswer : answer.toList.map (fun a => (a, some n)) =
      (answer.toList.map fun a => (a, (none : Option NodeId))).map (within n) := by
    simp [within]
  cases e with
  | node m =>
    have hparts := registeredAll_some m parts
    simp only [registered, Element.node?, Option.some_or, List.map_append, hparts, List.map_map,
      hanswer]
    congr 2
    funext r
    simp [within]
  | fragment slot items =>
    simp only [registered, Element.node?, Option.none_or, List.map_append, hanswer,
      registeredAll_some n parts]

theorem registeredAll_some (n : NodeId) (ts : List Built) :
    registeredAll (some n) ts = (registeredAll none ts).map (within n) := by
  cases ts with
  | nil => rfl
  | cons t rest =>
    simp only [registeredAll, List.map_append, registered_some n t, registeredAll_some n rest]

end

end Built

end UiTree
