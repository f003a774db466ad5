import UiTree.Proofs.Scene.Growth
import UiTree.Proofs.TreeInvariant
set_option autoImplicit false

/-!
The calls of a program as courses of steps. If component bodies and callbacks lead from scene to
scene by steps of their own, then so do `Engine.create` and `dispatch` with these bodies and
callbacks: what is shown of all moments holds of what these two functions compute.

A program may keep a log of the calls that its callbacks and methods get for notices, in its own
state or in the journal. The log then grows by just what the steps have told: whatever a callback
writes down is the telling of one notice, and every telling is written down once.
-/

namespace UiTree

def Entry.note? : Entry → Option Report
  | .note r => some r
  | .message _ _ => none

namespace Scene

/-- What the program has noted in the journal, the oldest first. -/
def notes (s : Scene) : List Report := (s.journal.entries.filterMap Entry.note?).reverse

theorem notes_message (s : Scene) (level : Level) (text : String) :
    (s.message level text).notes = s.notes := by
  simp only [notes, message, Journal.message]
  split
  · rw [List.filterMap_cons_none rfl]
  · rfl

theorem notes_note (s : Scene) (r : Report) : (s.note r).notes = s.notes ++ [r] := by
  simp [notes, note, Journal.note, Entry.note?]

theorem notes_foldl {α : Type} {f : Scene → α → Scene} (hf : ∀ s a, (f s a).notes = s.notes)
    (as : List α) (s : Scene) : (as.foldl f s).notes = s.notes := by
  induction as generalizing s with
  | nil => rfl
  | cons a rest ih => exact (ih _).trans (hf s a)

theorem notes_append (s : Scene) (p c : NodeId) : (s.append p c).2.notes = s.notes := by
  unfold append
  split <;> rfl

theorem notes_renderInto (s : Scene) (root : NodeId) (e : Element) :
    (s.renderInto root e).2.notes = s.notes := s.notes_message _ _

theorem notes_render (s : Scene) (doc : Document) (e : Element) (id : String) :
    (s.render doc e id).2.notes = s.notes := by
  unfold render
  split
  · exact s.notes_renderInto _ e
  · rfl

theorem notes_bindIfAsked (s : Scene) (request : Option RefRequest) (e : Element) :
    (s.bindIfAsked request e).notes = s.notes := by
  cases request with
  | none => rfl
  | some r => exact s.notes_message _ _

theorem notes_build (s : Scene) (events : EventSet) (tag : String) (config : Config)
    (nodes : List NodeId) : (s.build events tag config nodes).2.notes = s.notes := by
  rw [build_eq]
  cases config.refRequest with
  | error e => rfl
  | ok request =>
    refine (notes_foldl (fun s entry => ?_) _ _).trans (notes_bindIfAsked _ request _)
    unfold applyEntry
    split
    · rfl
    · split <;> rfl

theorem notes_pushNotice (s : Scene) (e : Element) (n : Notice) :
    (s.pushNotice e n).notes = s.notes := by
  cases e <;> rfl

theorem notes_settle (s : Scene) (name : Option String) (request : Option RefRequest) (cur : SinkId)
    (result : Element) : (s.settle name request cur result).2.notes = s.notes := by
  have hmove : ∀ s : Scene, (s.moveNotice cur result).notes = s.notes := by
    intro s
    unfold moveNotice
    split
    · exact notes_pushNotice _ result _
    · rfl
  refine Eq.trans ?_ ((hmove _).trans (s.notes_bindIfAsked request result))
  unfold settle attachMethods
  simp only
  split
  · rfl
  · cases result with
    | fragment slot items => rfl
    | node n => exact notes_foldl (f := attachMethod n) (fun s m => s.notes_message _ _) _ _

theorem notes_takeFromNodes (nodes : List NodeId) (s : Scene) :
    (s.takeFromNodes nodes).2.notes = s.notes := by
  induction nodes generalizing s with
  | nil => rfl
  | cons n rest ih => exact ih _

theorem notes_takeFromSlots (slots : List SlotId) (s : Scene) :
    (s.takeFromSlots slots).2.notes = s.notes := by
  induction slots generalizing s with
  | nil => rfl
  | cons id rest ih => exact ih _

theorem notes_announce (s : Scene) (result : Element) (notices : List Notice) :
    (s.announce result notices).notes = s.notes := by
  unfold announce
  split
  · rfl
  · cases result with
    | node parent => exact s.notes_message _ _
    | fragment slot items =>
      exact (notes_foldl (fun s n => s.notes_pushNotice _ n) _ _).trans (s.notes_message _ _)

end Scene

namespace Course

theorem Moment.notes_deliver (m : Moment) (result : Element) (nodes : List NodeId)
    (slots : List SlotId) : (m.deliver result nodes slots).scene.notes = m.scene.notes := by
  refine (Scene.notes_announce _ result _).trans ?_
  exact (Scene.notes_takeFromSlots slots _).trans (Scene.notes_takeFromNodes _ m.scene)

theorem Step.ledger_grows {m m' : Moment} (h : Step m m') :
    m.ledger.taken <+: m'.ledger.taken ∧ m.ledger.told <+: m'.ledger.told := by
  cases h with
  | bodyReturns | bodyRefused => exact ⟨List.prefix_append _ _, List.prefix_refl _⟩
  | tell => exact ⟨List.prefix_refl _, List.prefix_append _ _⟩
  | act | build | buildFails | call | bodyFails | answered | delivered | dispatch | hear | heard
  | rise | dispatched =>
    exact ⟨List.prefix_refl _, List.prefix_refl _⟩

theorem Steps.ledger_grows {m m' : Moment} (h : Steps m m') :
    m.ledger.taken <+: m'.ledger.taken ∧ m.ledger.told <+: m'.ledger.told := by
  induction h with
  | refl => exact ⟨List.prefix_refl _, List.prefix_refl _⟩
  | tail _ hlast ih => exact ⟨ih.1.trans hlast.ledger_grows.1, ih.2.trans hlast.ledger_grows.2⟩

variable {ω : Type}

/-- Code can lead from one scene to the other, whatever calls it runs on. -/
def Leads (s s' : Scene) : Prop := ∀ ks l, ∃ l', Steps ⟨s, .code :: ks, l⟩ ⟨s', .code :: ks, l'⟩

/-- How a program writes down the calls it gets for notices: the lines that one call adds, and the
log as it stands in the program's state and the notes of the journal. -/
structure Account (ω : Type) where
  Line : Type
  shows : Answer × NodeId → List Line
  log : ω → List Report → List Line

namespace Account

def blind : Account ω := ⟨Unit, fun _ => [], fun _ _ => []⟩

def whole (log : ω → Log) : Account ω := ⟨Answer × NodeId, fun call => [call], fun p _ => log p⟩

variable (a : Account ω)

def logOf (w : World ω) : List a.Line := a.log w.program w.scene.notes

/-- The log grows by the calls and then by what is told between the two ledgers. -/
def Grows (calls : Log) (l : Ledger) (w : World ω) (l' : Ledger) (w' : World ω) : Prop :=
  ∃ told, l'.told = l.told ++ told ∧
    a.logOf w' = a.logOf w ++ (calls ++ callsOf told).flatMap a.shows

/-- There is a course of steps from one world to the other, with the calls that are under way before
and after it, and the log keeps up with it. -/
def Passes (calls : Log) (fs : List Frame) (w : World ω) (fs' : List Frame) (w' : World ω) : Prop :=
  ∀ l, ∃ l', Steps ⟨w.scene, fs, l⟩ ⟨w'.scene, fs', l'⟩ ∧ a.Grows calls l w l' w'

/-- Code can lead from one world to the other, whatever calls it runs on. It was called by `calls`,
which are the first that it writes down. -/
def Leads (calls : Log) (w w' : World ω) : Prop :=
  ∀ ks, a.Passes calls (.code :: ks) w (.code :: ks) w'

theorem logOf_congr {w : World ω} {s : Scene} (hnotes : s.notes = w.scene.notes) :
    a.logOf { w with scene := s } = a.logOf w := congrArg (a.log w.program) hnotes

variable {a}

theorem Grows.still {l l' : Ledger} {w w' : World ω} (htold : l'.told = l.told)
    (hlog : a.logOf w' = a.logOf w) : a.Grows [] l w l' w' :=
  ⟨[], by simpa using htold, by simp [hlog, callsOf]⟩

namespace Passes

variable {calls : Log} {fs fs₁ fs₂ : List Frame} {w w₁ w₂ : World ω}

theorem refl : a.Passes [] fs w fs w := fun l => ⟨l, .refl, .still rfl rfl⟩

theorem trans (h : a.Passes calls fs w fs₁ w₁) (h' : a.Passes [] fs₁ w₁ fs₂ w₂) :
    a.Passes calls fs w fs₂ w₂ := by
  intro l
  obtain ⟨l₁, hsteps, told, htold, hlog⟩ := h l
  obtain ⟨l₂, hsteps', told', htold', hlog'⟩ := h' l₁
  refine ⟨l₂, hsteps.trans hsteps', told ++ told', ?_, ?_⟩
  · rw [htold', htold, List.append_assoc]
  · simp [hlog', hlog, callsOf]

theorem step {s : Scene} (hnotes : s.notes = w.scene.notes)
    (h : ∀ l, ∃ l', Step ⟨w.scene, fs, l⟩ ⟨s, fs₁, l'⟩ ∧ l'.told = l.told) :
    a.Passes [] fs w fs₁ { w with scene := s } := by
  intro l
  obtain ⟨l', hstep, htold⟩ := h l
  exact ⟨l', .single hstep, .still htold (a.logOf_congr hnotes)⟩

theorem tell {p : NodeId} {n : Notice} {left : List Notice} {ks : List Frame}
    (h : a.Passes [(n.answer, p)] (.code :: .telling p left :: ks) w fs₁ w₁) :
    a.Passes [] (.telling p (n :: left) :: ks) w fs₁ w₁ := by
  intro l
  obtain ⟨l₁, hsteps, told, htold, hlog⟩ := h (l.tell n p)
  refine ⟨l₁, .head (.tell _ _ _ _ _ _) hsteps, (n, p) :: told, ?_, ?_⟩
  · rw [htold, Ledger.tell, List.append_assoc, List.singleton_append]
  · simpa [callsOf] using hlog

theorem grows (h : a.Passes calls fs w fs₁ w₁) : w.scene.Extends w₁.scene := by
  obtain ⟨l, hsteps, -⟩ := h ⟨[], []⟩
  exact hsteps.grows

end Passes

theorem Leads.refl (w : World ω) : a.Leads [] w w := fun _ => .refl

theorem Leads.trans {calls : Log} {w w₁ w₂ : World ω} (h : a.Leads calls w w₁)
    (h' : a.Leads [] w₁ w₂) : a.Leads calls w w₂ := fun ks => (h ks).trans (h' ks)

theorem Leads.act {w w' : World ω} (h : Act w.scene w'.scene) (hlog : a.logOf w' = a.logOf w) :
    a.Leads [] w w' := fun _ l => ⟨l, .single (.act h), .still rfl hlog⟩

theorem Leads.of_blind {calls : Log} {w w' : World ω} (h : Course.Leads w.scene w'.scene) :
    blind.Leads calls w w' := by
  intro ks l
  obtain ⟨l', hsteps⟩ := h ks l
  obtain ⟨told, htold⟩ := hsteps.ledger_grows.2
  have hlines : (calls ++ callsOf told).flatMap (blind : Account ω).shows = [] :=
    List.flatMap_eq_nil_iff.2 fun _ _ => rfl
  refine ⟨l', hsteps, told, htold.symm, ?_⟩
  rw [hlines]
  rfl

theorem Leads.of_shows_nil {call : Answer × NodeId} {w w' : World ω} (h : a.Leads [] w w')
    (hshows : a.shows call = []) : a.Leads [call] w w' := by
  intro ks l
  obtain ⟨l', hsteps, told, htold, hlog⟩ := h ks l
  exact ⟨l', hsteps, told, htold, by simpa [hshows] using hlog⟩

theorem Leads.grows {calls : Log} {w w' : World ω} (h : a.Leads calls w w') :
    w.scene.Extends w'.scene := (h []).grows

end Account

/-- Bodies and callbacks that lead from world to world as long as the program is in order. The
program stays in order under them and under what the library does in between. They may count on the
configs being fit for them, and what they are told is what the account of the program shows. -/
structure Follows (b : Behaviours ω) (inOrder : World ω → Prop)
    (fit : Scene → Config → Prop := fun _ _ => True) (a : Account ω := .blind) : Prop where
  stepped : ∀ {w : World ω} {fs fs' : List Frame} {l l' : Ledger} {s : Scene}, inOrder w →
    Step ⟨w.scene, fs, l⟩ ⟨s, fs', l'⟩ → inOrder { w with scene := s }
  fits : ∀ {s s' : Scene} {config : Config}, fit s config → s.Extends s' → fit s' config
  render : ∀ {w : World ω} (c : Component) {props : Props}, inOrder w →
    (∀ n ∈ props.children, n < w.scene.tree.size) → fit w.scene props.config →
    a.Leads [] w (b.render c props w).2 ∧ inOrder (b.render c props w).2 ∧
      ∀ e, (b.render c props w).1 = .ok e → (b.render c props w).2.scene.Knows e
  notify : ∀ {w : World ω} (c : Closure) {p : NodeId}, inOrder w → p < w.scene.tree.size →
    a.Leads [(.callback c, p)] w (b.notify c p w) ∧ inOrder (b.notify c p w)
  invoke : ∀ {w : World ω} (c : Closure) {p : NodeId}, inOrder w → p < w.scene.tree.size →
    a.Leads [(.method c, p)] w (b.invoke c [.node p] w).2 ∧ inOrder (b.invoke c [.node p] w).2
  handle : ∀ {w : World ω} (c : Closure) {e : Event}, inOrder w → e.target < w.scene.tree.size →
    e.current < w.scene.tree.size → a.Leads [] w (b.handle c e w) ∧ inOrder (b.handle c e w)
  respond : ∀ {w : World ω} (c : Closure) {e : Event}, inOrder w → e.target < w.scene.tree.size →
    e.current < w.scene.tree.size →
    a.Leads [] w (b.respond c [.node e.target] e w) ∧ inOrder (b.respond c [.node e.target] e w)

namespace Follows

variable {b : Behaviours ω} {inOrder : World ω → Prop} {fit : Scene → Config → Prop} {a : Account ω}

theorem acted (hb : Follows b inOrder fit a) {w : World ω} {s : Scene} (hw : inOrder w)
    (h : Act w.scene s) : inOrder { w with scene := s } := by
  have hstep : Step ⟨w.scene, [.code], ⟨[], []⟩⟩ ⟨s, [.code], ⟨[], []⟩⟩ := .act h
  exact hb.stepped hw hstep

theorem tell (hb : Follows b inOrder fit a) {w : World ω} {p : NodeId} (hw : inOrder w)
    (hp : p < w.scene.tree.size) (n : Notice) :
    a.Leads [(n.answer, p)] w (b.tell p w n) ∧ inOrder (b.tell p w n) := by
  unfold Behaviours.tell
  cases n.answer with
  | callback c => exact hb.notify c hw hp
  | method c => exact hb.invoke c hw hp

/-- Part of a delivery: the notices in front are told in turn, and the others are still held. -/
theorem tellFirst (hb : Follows b inOrder fit a) {p : NodeId} (notices left : List Notice)
    {w : World ω} (hw : inOrder w) (hp : p < w.scene.tree.size) (ks : List Frame) :
    inOrder (notices.foldl (b.tell p) w) ∧
      a.Passes [] (.telling p (notices ++ left) :: ks) w (.telling p left :: ks)
        (notices.foldl (b.tell p) w) := by
  induction notices generalizing w with
  | nil => exact ⟨hw, .refl⟩
  | cons n rest ih =>
    obtain ⟨hlead, hone⟩ := hb.tell hw hp n
    obtain ⟨hall, hrest⟩ := ih hone (Nat.lt_of_lt_of_le hp hlead.grows.nodes)
    have hanswered : a.Passes [] (.code :: .telling p (rest ++ left) :: ks) (b.tell p w n)
        (.telling p (rest ++ left) :: ks) (b.tell p w n) :=
      .step rfl fun l => ⟨l, .answered _ _ _ _ _, rfl⟩
    exact ⟨hall, .tell ((hlead _).trans (hanswered.trans hrest))⟩

theorem tellAll (hb : Follows b inOrder fit a) {p : NodeId} (notices : List Notice) {w : World ω}
    (hw : inOrder w) (hp : p < w.scene.tree.size) (ks : List Frame) :
    inOrder (notices.foldl (b.tell p) w) ∧
      a.Passes [] (.telling p notices :: ks) w ks (notices.foldl (b.tell p) w) := by
  obtain ⟨hall, htold⟩ := hb.tellFirst notices [] hw hp ks
  rw [List.append_nil] at htold
  exact ⟨hall, htold.trans (.step rfl fun l => ⟨l, .delivered _ _ _ _, rfl⟩)⟩

def Completes (a : Account ω) (inOrder : World ω → Prop) (w : World ω)
    (made : Except Error Element × World ω) : Prop :=
  a.Leads [] w made.2 ∧ inOrder made.2 ∧ ∀ e, made.1 = .ok e → made.2.scene.Knows e

/-- The delivery of a create call. Its first step, from `start`, is the one in which the result is
made and the notices of the children are collected. -/
theorem deliver (hb : Follows b inOrder fit a) {result : Element} {start w : World ω}
    (nodes : List NodeId) (slots : List SlotId) {fs ks : List Frame} (hw : inOrder start)
    (hprogram : w.program = start.program) (hnotes : w.scene.notes = start.scene.notes)
    (hr : w.scene.Knows result)
    (hstep : ∀ l, ∃ l', Step ⟨start.scene, fs, l⟩
      (Moment.deliver ⟨w.scene, ks, l'⟩ result nodes slots) ∧ l'.told = l.told) :
    let got := w.scene.collect result nodes slots
    let w' := Engine.deliver b result got.1 { w with scene := got.2 }
    a.Passes [] fs start ks w' ∧ inOrder w' ∧ w'.scene.Knows result := by
  intro got w'
  let ready : World ω := ⟨got.2.announce result got.1, start.program⟩
  have hext : w.scene.Extends ready.scene := Moment.extends_deliver ⟨w.scene, ks, ⟨[], []⟩⟩ _ _ _
  have hready : inOrder ready := by
    obtain ⟨l', hs, -⟩ := hstep ⟨[], []⟩
    exact hb.stepped hw hs
  have hstart : a.Passes [] fs start
      (Moment.deliver ⟨w.scene, ks, ⟨[], []⟩⟩ result nodes slots).frames ready := by
    refine .step ((Moment.notes_deliver ⟨w.scene, ks, ⟨[], []⟩⟩ _ _ _).trans hnotes) fun l => ?_
    obtain ⟨l', hs, htold⟩ := hstep l
    exact ⟨l', hs, htold⟩
  cases result with
  | node p =>
    have hp := (hext.knows hr).1 p (by simp [Element.nodes])
    have hw' : w' = got.1.foldl (b.tell p) ready := by
      simp only [w', Engine.deliver_node, hprogram, ready]
    obtain ⟨horder, htold⟩ := hb.tellAll got.1 hready hp ks
    rw [hw']
    exact ⟨hstart.trans htold, horder, (hext.trans htold.grows).knows hr⟩
  | fragment slot items =>
    have hw' : w' = ready := by simp only [w', Engine.deliver_fragment, hprogram, ready]
    rw [hw']
    exact ⟨hstart, hready, hext.knows hr⟩

theorem create_tag (hb : Follows b inOrder fit a) (engine : Engine) (name : String)
    (config : Config) {children : List Element} {w : World ω} (hw : inOrder w)
    (hc : ∀ e ∈ children, w.scene.Knows e) :
    Completes a inOrder w (engine.create b (.tag name) config children w) := by
  have hnotes := ((w.scene.announceTag name (flatten children)).notes_build engine.events name
    config (flatten children)).trans (w.scene.notes_message _ _)
  rw [Engine.create_tag]
  rcases hmade : (w.scene.announceTag name (flatten children)).build engine.events name config
    (flatten children) with ⟨e | n, s⟩
  · rw [hmade] at hnotes
    have hfail : ∀ ks l, Step ⟨w.scene, .code :: ks, l⟩ ⟨s, .code :: ks, l⟩ :=
      fun ks l => .buildFails engine name config hc hmade
    refine ⟨fun ks => .step hnotes fun l => ⟨l, hfail ks l, rfl⟩, ?_, fun e he => by cases he⟩
    exact hb.stepped hw (hfail [] ⟨[], []⟩)
  · rw [hmade] at hnotes
    have hbuild : ∀ ks l, Step ⟨w.scene, .code :: ks, l⟩
        (Moment.deliver ⟨s, .code :: ks, l⟩ (.node n) (flatten children) (slotsOf children)) :=
      fun ks l => .build engine name config hc hmade
    have hdeliver := fun ks : List Frame => hb.deliver (w := { w with scene := s })
      (flatten children) (slotsOf children) hw rfl hnotes (Scene.knows_of_build hmade)
      fun l => ⟨l, hbuild ks l, rfl⟩
    refine ⟨fun ks => (hdeliver ks).1, (hdeliver []).2.1, fun e he => ?_⟩
    cases he
    exact (hdeliver []).2.2

theorem create_component (hb : Follows b inOrder fit a) (engine : Engine) (c : Component)
    {config : Config} {children : List Element} {w : World ω} (hw : inOrder w)
    (hfit : fit w.scene config) (hc : ∀ e ∈ children, w.scene.Knows e) :
    Completes a inOrder w (engine.create b (.component c) config children w) := by
  rw [Engine.create_component]
  cases hr : config.refRequest with
  | error e =>
    have hjournal : Act w.scene (w.scene.announceCall c (flatten children)) := .journal _ _
    exact ⟨.act hjournal (a.logOf_congr (w.scene.notes_message _ _)), hb.acted hw hjournal,
      fun e he => by cases he⟩
  | ok request =>
    have henter := w.scene.extends_enter c (flatten children)
    let inner : World ω := { w with scene := w.scene.enter c (flatten children) }
    have hcall : ∀ ks l, Step ⟨w.scene, .code :: ks, l⟩ ⟨inner.scene, .code :: .rendering c.name
        request w.scene.sinks.size (flatten children) (slotsOf children) :: .code :: ks, l⟩ :=
      fun ks l => .call _ _ _ c hc hr
    have hnodes : ∀ n ∈ (engine.propsIn config (flatten children) w.scene).children,
        n < inner.scene.tree.size :=
      fun n hn => Nat.lt_of_lt_of_le (Scene.lt_size_of_knows hc n hn) henter.nodes
    obtain ⟨hbody, horder, hknown⟩ := hb.render c (hb.stepped hw (hcall [] ⟨[], []⟩)) hnodes
      (hb.fits hfit henter)
    have hcalled : ∀ ks, a.Passes [] (.code :: ks) w _ inner :=
      fun ks => .step (w.scene.notes_message _ _) fun l => ⟨l, hcall ks l, rfl⟩
    -- The steps up to the end of the body, on any calls below.
    have hstart := fun ks => (hcalled ks).trans (hbody _)
    simp only
    rcases hrun : b.render c (engine.propsIn config (flatten children) w.scene) inner
      with ⟨e | result, w'⟩
    · rw [hrun] at hstart horder
      refine ⟨fun ks => (hstart ks).trans ?_, horder, fun e he => by cases he⟩
      exact .step rfl fun l => ⟨l, .bodyFails _ _ _ _ _ _ _ _, rfl⟩
    · rw [hrun] at hstart horder hknown
      have hresult : w'.scene.Knows result := hknown _ rfl
      have hnotes := w'.scene.notes_settle c.name request w.scene.sinks.size result
      have hsettle := w'.scene.extends_settle c.name request w.scene.sinks.size result
      simp only
      rcases hset : w'.scene.settle c.name request w.scene.sinks.size result with ⟨e | result', s⟩
      · rw [hset] at hnotes
        have hrefused : ∀ ks l, Step _ (Moment.settle ⟨w'.scene, ks, l⟩ w.scene.sinks.size s) :=
          fun ks l => .bodyRefused (flatten children) (slotsOf children) hresult hset
        refine ⟨fun ks => (hstart ks).trans (.step hnotes fun l => ⟨_, hrefused _ l, rfl⟩), ?_,
          fun e he => by cases he⟩
        exact hb.stepped horder (hrefused [] ⟨[], []⟩)
      · rw [hset] at hnotes hsettle
        cases Scene.settle_eq_ok hset
        have hreturn : ∀ ks l, Step _ (Moment.deliver (.settle ⟨w'.scene, .code :: ks, l⟩
            w.scene.sinks.size s) result (flatten children) (slotsOf children)) :=
          fun ks l => .bodyReturns _ _ hresult hset
        have hdeliver := fun ks : List Frame => hb.deliver (w := { w' with scene := s })
          (flatten children) (slotsOf children) horder rfl hnotes (hsettle.knows hresult)
          fun l => ⟨_, hreturn ks l, rfl⟩
        refine ⟨fun ks => (hstart ks).trans (hdeliver ks).1, (hdeliver []).2.1, fun e he => ?_⟩
        cases he
        exact (hdeliver []).2.2

theorem create (hb : Follows b inOrder fit a) (engine : Engine) (type : ElementType)
    {config : Config} {children : List Element} {w : World ω} (hw : inOrder w)
    (hfit : fit w.scene config) (hc : ∀ e ∈ children, w.scene.Knows e) :
    Completes a inOrder w (engine.create b type config children w) := by
  cases type with
  | tag name => exact hb.create_tag engine name config hw hc
  | component c => exact hb.create_component engine c hw hfit hc

theorem callListener (hb : Follows b inOrder fit a) {e : Event} {w : World ω} (hw : inOrder w)
    (ht : e.target < w.scene.tree.size) (hc : e.current < w.scene.tree.size) (v : Value) :
    a.Leads [] w (callListener b e w v) ∧ inOrder (callListener b e w v) := by
  cases v with
  | handler c => exact hb.handle c hw ht hc
  | method c => exact hb.respond c hw ht hc
  | null | bool | int | float | str | list | node | element | ref =>
    have hjournal : ∀ text, Act w.scene (w.scene.message .warn text) := fun text => .journal _ _
    exact ⟨.act (hjournal _) (a.logOf_congr (w.scene.notes_message _ _)), hb.acted hw (hjournal _)⟩

theorem hearAll (hb : Follows b inOrder fit a) {e : Event} (vs : List Value) {w : World ω}
    (hw : inOrder w) (ht : e.target < w.scene.tree.size) (hc : e.current < w.scene.tree.size)
    (ks : List Frame) (fuel : Nat) :
    let w' := vs.foldl (UiTree.callListener b e) w
    inOrder w' ∧ a.Passes [] (.hearing e vs fuel :: ks) w (.hearing e [] fuel :: ks) w' := by
  induction vs generalizing w with
  | nil => exact ⟨hw, .refl⟩
  | cons v rest ih =>
    obtain ⟨hlead, hone⟩ := hb.callListener hw ht hc v
    have hnodes := hlead.grows.nodes
    obtain ⟨hall, hrest⟩ := ih hone (Nat.lt_of_lt_of_le ht hnodes) (Nat.lt_of_lt_of_le hc hnodes)
    have hhear : a.Passes [] (.hearing e (v :: rest) fuel :: ks) w
        (.code :: .hearing e rest fuel :: ks) w := .step rfl fun l => ⟨l, .hear _ _ _ _ _ _ _, rfl⟩
    have hheard : a.Passes [] (.code :: .hearing e rest fuel :: ks) (UiTree.callListener b e w v)
        (.hearing e rest fuel :: ks) (UiTree.callListener b e w v) :=
      .step rfl fun l => ⟨l, .heard _ _ _ _ _ _, rfl⟩
    exact ⟨hall, hhear.trans ((hlead _).trans (hheard.trans hrest))⟩

theorem bubble (hb : Follows b inOrder fit a) {e : Event} (fuel : Nat) {n : NodeId} {w : World ω}
    (hw : inOrder w) (hwf : w.scene.tree.WellFormed) (ht : e.target < w.scene.tree.size)
    (hn : n < w.scene.tree.size) (ks : List Frame) :
    let w' := UiTree.bubble b e (fuel + 1) n w
    let heard := (w.scene.node n).listeners.get e.kind
    inOrder w' ∧ a.Passes [] (.hearing { e with current := n } heard fuel :: ks) w ks w' := by
  intro w' heard
  obtain ⟨horder, hvisit⟩ := hb.hearAll (e := { e with current := n }) heard hw ht hn ks fuel
  change inOrder (visit b e n w) at horder
  change a.Passes [] _ w _ (visit b e n w) at hvisit
  have hwf₁ : (visit b e n w).scene.tree.WellFormed := by
    obtain ⟨l, hsteps, -⟩ := hvisit ⟨[], []⟩
    exact hsteps.wellFormed hwf
  have hend : ((visit b e n w).scene.stopped e = true ∨
      (visit b e n w).scene.tree.parent n = none ∨ fuel = 0) →
      a.Passes [] (.hearing { e with current := n } [] fuel :: ks) (visit b e n w) ks
        (visit b e n w) := by
    intro h
    exact .step rfl fun l => ⟨l, .dispatched ks l h, rfl⟩
  simp only [w', UiTree.bubble]
  split
  · rename_i hstop
    exact ⟨horder, hvisit.trans (hend (.inl hstop))⟩
  · rename_i hstop
    cases hp : (visit b e n w).scene.tree.parent n with
    | none => exact ⟨horder, hvisit.trans (hend (.inr (.inl hp)))⟩
    | some p =>
      cases fuel with
      | zero => exact ⟨horder, hvisit.trans (hend (.inr (.inr rfl)))⟩
      | succ fuel =>
        have hgo : (visit b e n w).scene.stopped e = false := by simpa using hstop
        have hrise : a.Passes [] (.hearing { e with current := n } [] (fuel + 1) :: ks)
            (visit b e n w) (.hearing { e with current := p }
              (((visit b e n w).scene.node p).listeners.get e.kind) fuel :: ks) (visit b e n w) :=
          .step rfl fun l => ⟨l, .rise ks l fuel (e := { e with current := n }) hgo hp, rfl⟩
        obtain ⟨hall, hrest⟩ := bubble hb fuel (n := p) horder hwf₁
          (Nat.lt_of_lt_of_le ht hvisit.grows.nodes) (hwf₁.parent_lt_size hp) ks
        exact ⟨hall, hvisit.trans (hrise.trans hrest)⟩

theorem dispatch (hb : Follows b inOrder fit a) (kind : String) {target : NodeId} {w : World ω}
    (hw : inOrder w) (hwf : w.scene.tree.WellFormed) (ht : target < w.scene.tree.size) :
    a.Leads [] w (dispatch b kind target w).2 ∧ inOrder (dispatch b kind target w).2 := by
  obtain ⟨fuel, hfuel⟩ : ∃ fuel, (w.scene.event kind target).2.tree.size + bubbleSlack = fuel + 1 :=
    Nat.exists_eq_succ_of_ne_zero (by unfold bubbleSlack; omega)
  let start : World ω := { w with scene := (w.scene.event kind target).2 }
  have heq : UiTree.dispatch b kind target w = ((w.scene.event kind target).1,
      UiTree.bubble b (w.scene.event kind target).1 (fuel + 1) target start) := by
    rw [← hfuel]
    rfl
  have hbegin : ∀ ks l, Step ⟨w.scene, .code :: ks, l⟩ ⟨start.scene, .hearing
      (w.scene.event kind target).1 ((start.scene.node target).listeners.get kind) fuel ::
        .code :: ks, l⟩ := fun ks l => .dispatch w.scene ks l kind target fuel
  have hway := fun ks => hb.bubble (w := start) (e := (w.scene.event kind target).1) fuel
    (n := target) (hb.stepped hw (hbegin [] ⟨[], []⟩)) hwf ht ht ks
  rw [heq]
  refine ⟨fun ks => ?_, (hway []).1⟩
  have hfirst : a.Passes [] (.code :: ks) w _ start := .step rfl fun l => ⟨l, hbegin ks l, rfl⟩
  exact hfirst.trans (hway (.code :: ks)).2

end Follows

end Course

end UiTree
