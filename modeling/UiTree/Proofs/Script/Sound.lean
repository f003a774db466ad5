import UiTree.Proofs.Course.Calls
import UiTree.Proofs.Script.Known
set_option autoImplicit false

/-!
Running code as a course of steps. An action is sound in a world if what it does is a course of
steps, leaves the script in order and gives a result that has been made, as far as that can be said
of it. There is one rule for each way of putting actions together, and one for each basic action.

The journal is the script's log: a callback that is told its parent is noted there, with its code
and the number of the parent, and nothing else leaves a note of this form.
-/

namespace UiTree.Script

open Relation
open Run
open Course (Act Account Follows)

/-- The code and the number of the parent, if the note tells of a callback that was given one. -/
def toldIn : Report → Option (String × Int)
  | .record fields =>
    match fields.lookup "as", fields.lookup "call", fields.lookup "parent" with
    | some (.text "got_parent"), some (.text code), some (.number parent) => some (code, parent)
    | _, _, _ => none
  | _ => none

def noted : Account Memory where
  Line := String × Int
  shows
    | (.callback c, p) => [(c.code, p.number)]
    | (.method _, _) => []
  log _ notes := notes.filterMap toldIn

/-- Behaviours that code of a script can be run with. Methods may also be called by the code itself,
with any values. -/
structure Serves (b : Behaviours Memory) : Prop where
  follows : Follows b InOrder Scene.HasAll noted
  invokes : ∀ {w : World Memory} (c : Closure) {args : List Value}, InOrder w →
    (∀ v ∈ args, w.scene.Has v) → noted.Leads [] w (b.invoke c args w).2 ∧
      InOrder (b.invoke c args w).2 ∧ (b.invoke c args w).2.scene.Has (b.invoke c args w).1

structure Ready (c : Context) (w : World Memory) : Prop where
  serves : Serves c.behaviours
  role : c.role.Known w.scene
  inOrder : InOrder w

def Sound {α : Type} (act : Run α) (c : Context) (w : World Memory) (post : Scene → α → Prop) :
    Prop :=
  Ready c w → noted.Leads [] w (act.start c w).2 ∧ InOrder (act.start c w).2 ∧
    ∀ a, (act.start c w).1 = .ok a → post (act.start c w).2.scene a

abbrev Safe {α : Type} (act : Run α) (c : Context) (w : World Memory) : Prop :=
  Sound act c w fun _ _ => True

section

variable {α β : Type} {act : Run α} {c : Context} {w : World Memory} {post : Scene → α → Prop}

theorem start_bind (act : Run α) (f : α → Run β) (c : Context) (w : World Memory) :
    (act >>= f).start c w = match act.start c w with
      | (.ok a, w') => (f a).start c w'
      | (.error e, w') => (.error e, w') := by
  have hstart : (act >>= f).start c w =
      (ExceptT.bindCont (fun a => f a c) (act.start c w).1 : StateM _ _) (act.start c w).2 := rfl
  rw [hstart]
  rcases act.start c w with ⟨e | a, w'⟩
  · rfl
  · rfl

theorem start_outcome (act : Run α) (c : Context) (w : World Memory) :
    (outcome act).start c w = (.ok (act.start c w).1, (act.start c w).2) := by
  simp only [Run.start, outcome, tryCatch, tryCatchThe, MonadExceptOf.tryCatch, ExceptT.tryCatch,
    ExceptT.run, ExceptT.mk, Functor.map, ExceptT.map, bind, StateT.bind, pure]
  rcases act c w with ⟨e | a, w'⟩
  · rfl
  · rfl

namespace Sound

theorem pure {a : α} (h : post w.scene a) : Sound (pure a) c w post := by
  intro hr
  refine ⟨.refl w, hr.inOrder, fun a' ha => ?_⟩
  cases ha
  exact h

theorem throw (e : Failure) : Sound (throw e) c w post := by
  intro hr
  refine ⟨.refl w, hr.inOrder, fun a ha => ?_⟩
  cases ha

theorem bind {mid : Scene → α → Prop} {f : α → Run β} {post : Scene → β → Prop}
    (h : Sound act c w mid)
    (hf : ∀ a w', w.scene.Extends w'.scene → mid w'.scene a → Sound (f a) c w' post) :
    Sound (act >>= f) c w post := by
  intro hr
  obtain ⟨hlead, horder, hmid⟩ := h hr
  rw [start_bind]
  rcases hrun : act.start c w with ⟨e | a, w'⟩
  · rw [hrun] at hlead horder
    exact ⟨hlead, horder, fun a ha => by cases ha⟩
  · rw [hrun] at hlead horder hmid
    have hready : Ready c w' := ⟨hr.serves, hr.role.mono hlead.grows, horder⟩
    obtain ⟨hlead', horder', hpost⟩ := hf a w' hlead.grows (hmid a rfl) hready
    exact ⟨hlead.trans hlead', horder', hpost⟩

theorem mono {post' : Scene → α → Prop} (h : Sound act c w post)
    (hp : ∀ s a, post s a → post' s a) : Sound act c w post' := by
  intro hr
  obtain ⟨hlead, horder, hpost⟩ := h hr
  exact ⟨hlead, horder, fun a ha => hp _ a (hpost a ha)⟩

theorem safe (h : Sound act c w post) : Safe act c w := h.mono fun _ _ _ => trivial

theorem outcome (h : Sound act c w post) :
    Sound (outcome act) c w fun s r => ∀ a, r = .ok a → post s a := by
  intro hr
  obtain ⟨hlead, horder, hpost⟩ := h hr
  rw [start_outcome]
  refine ⟨hlead, horder, fun r hr a ha => ?_⟩
  cases hr
  exact hpost a ha

theorem scene {f : Scene → Run β} {post : Scene → β → Prop} (h : Sound (f w.scene) c w post) :
    Sound (scene >>= f) c w post := h

theorem memory {f : Memory → Run β} {post : Scene → β → Prop} (h : Sound (f w.program) c w post) :
    Sound (memory >>= f) c w post := h

theorem read {f : Context → Run β} {post : Scene → β → Prop} (h : Sound (f c) c w post) :
    Sound (read >>= f) c w post := h

theorem need {o : Option α} {f : α → Run β} {post : Scene → β → Prop}
    (h : ∀ a, o = some a → Sound (f a) c w post) : Sound (need o >>= f) c w post := by
  cases o with
  | none => exact .throw _
  | some a => exact h a rfl

theorem ready (h : Ready c w → Sound act c w post) : Sound act c w post := fun hr => h hr hr

theorem andThen {f : α → Run β} {post : Scene → β → Prop} (h : Safe act c w)
    (hf : ∀ a w', w.scene.Extends w'.scene → Sound (f a) c w' post) :
    Sound (act >>= f) c w post :=
  h.bind fun a w' hx _ => hf a w' hx

end Sound

theorem sound_need {o : Option α} (h : ∀ a, o = some a → post w.scene a) :
    Sound (need o) c w post := by
  cases o with
  | none => exact .throw _
  | some a => exact .pure (h a rfl)

/-- Operations on the scene that note no telling. The script may change its memory with them. -/
theorem leads_acts {s : Scene} (h : ReflTransGen Act w.scene s) {m : Memory}
    (hlog : noted.logOf ⟨s, m⟩ = noted.logOf w) : noted.Leads [] w ⟨s, m⟩ := by
  intro ks l
  have hsteps : Course.Steps ⟨w.scene, .code :: ks, l⟩ ⟨s, .code :: ks, l⟩ := by
    clear hlog
    induction h with
    | refl => exact .refl
    | tail _ hlast ih => exact ih.tail (.act hlast)
  exact ⟨l, hsteps, .still rfl hlog⟩

theorem sound_modifyGet {f : World Memory → α × World Memory}
    (h : Ready c w → noted.Leads [] w (f w).2 ∧ InOrder (f w).2 ∧ post (f w).2.scene (f w).1) :
    Sound (modifyGet f) c w post := by
  intro hr
  obtain ⟨hlead, horder, hpost⟩ := h hr
  refine ⟨hlead, horder, fun a ha => ?_⟩
  cases ha
  exact hpost

theorem safe_modify {f : World Memory → World Memory}
    (h : Ready c w → noted.Leads [] w (f w) ∧ InOrder (f w)) : Safe (modify f) c w :=
  sound_modifyGet (f := fun w => ((), f w)) fun hr => ⟨(h hr).1, (h hr).2, trivial⟩

theorem sound_modifyMemory {f : Memory → Memory}
    (h : w.program.Known w.scene → (f w.program).Known w.scene) :
    Sound (modifyMemory f) c w fun s _ => s = w.scene :=
  sound_modifyGet fun hr =>
    ⟨leads_acts .refl rfl, ⟨hr.inOrder.links, hr.inOrder.refs, h hr.inOrder.memory⟩, rfl⟩

theorem sound_making {f : Scene → α × Scene} (h : ReflTransGen Act w.scene (f w.scene).2)
    (hlog : noted.logOf ⟨(f w.scene).2, w.program⟩ = noted.logOf w)
    (hp : post (f w.scene).2 (f w.scene).1) : Sound (making f) c w post :=
  sound_modifyGet fun hr => ⟨leads_acts h hlog, (hr.inOrder.acts h).1, hp⟩

theorem safe_modifyScene {f : Scene → Scene} (h : ReflTransGen Act w.scene (f w.scene))
    (hlog : noted.logOf ⟨f w.scene, w.program⟩ = noted.logOf w) : Safe (modifyScene f) c w :=
  safe_modify fun hr => ⟨leads_acts h hlog, (hr.inOrder.acts h).1⟩

theorem sound_onWorld {f : World Memory → Except Error α × World Memory}
    (h : Ready c w → noted.Leads [] w (f w).2 ∧ InOrder (f w).2 ∧
      ∀ a, (f w).1 = .ok a → post (f w).2.scene a) : Sound (onWorld f) c w post := by
  have hget : Sound (modifyGet f) c w fun s r => ∀ a, r = .ok a → post s a := sound_modifyGet h
  refine hget.bind fun r w' _ hr => ?_
  cases r with
  | ok a => exact .pure (hr a rfl)
  | error e => exact .throw _

theorem sound_onScene {f : Scene → Except Error α × Scene}
    (h : ReflTransGen Act w.scene (f w.scene).2)
    (hlog : noted.logOf ⟨(f w.scene).2, w.program⟩ = noted.logOf w)
    (hp : ∀ a, (f w.scene).1 = .ok a → post (f w.scene).2 a) : Sound (onScene f) c w post :=
  sound_onWorld fun hr => ⟨leads_acts h hlog, (hr.inOrder.acts h).1, hp⟩

theorem leads_note (hw : InOrder w) {r : Report} (h : toldIn r = none) :
    noted.Leads [] w (w.note r) ∧ InOrder (w.note r) := by
  refine ⟨leads_acts (.single (.journal _ _)) ?_, hw.act (.journal _ _)⟩
  change (w.scene.note r).notes.filterMap toldIn = w.scene.notes.filterMap toldIn
  simp [Scene.notes_note, h]

theorem safe_note {r : Report} (h : toldIn r = none) : Safe (note r) c w :=
  safe_modify fun hr => leads_note hr.inOrder h

theorem safe_letGo : Safe (modify letGo) c w := by
  refine safe_modify fun hr => ?_
  unfold letGo
  split
  · have hact : Act w.scene { w.scene with
        tree := w.scene.tree.prune (w.scene.tree.kept (w.program.roots w.scene)) } := .letGo _ _
    have horder := hr.inOrder.act hact
    exact ⟨leads_acts (.single hact) rfl, horder.links, horder.refs, horder.memory.elsewhere ..⟩
  · exact ⟨.refl w, hr.inOrder⟩

theorem sound_holding (nodes : List NodeId) (h : ∀ w', w'.scene = w.scene → Sound act c w' post) :
    Sound (holding nodes act) c w post := by
  refine .memory (.bind (sound_modifyMemory fun h => h.elsewhere ..) fun _ w₁ _ hw₁ => ?_)
  refine (h w₁ hw₁).outcome.bind fun r w₂ _ hpost => ?_
  refine .bind (sound_modifyMemory fun h => h.elsewhere ..) fun _ w₃ _ hw₃ => ?_
  cases r with
  | ok a => exact .pure (hw₃ ▸ hpost a rfl)
  | error e => exact .throw _

end

section

variable {c : Context} {w : World Memory}

theorem sound_frame : Sound frame c w fun s f => f.Known s := by
  refine .read ?_
  cases c.frame with
  | none => exact .throw _
  | some id =>
    refine .memory (.ready fun hr => sound_need fun f hf => ?_)
    exact hr.inOrder.memory.frames f (Array.mem_of_getElem? hf)

theorem sound_isLocal (name : String) : Sound (isLocal name) c w fun s _ => s = w.scene :=
  .read (.pure rfl)

theorem sound_lookup? (name : String) :
    Sound (lookup? name) c w fun s o => ∀ v, o = some v → s.Has v := by
  refine (sound_isLocal name).bind fun b w₁ _ _ => ?_
  split
  · exact sound_frame.bind fun f w₂ _ hf => .pure fun v hv => hf.locals name v hv
  · exact .memory (.ready fun hr => .pure fun v hv => hr.inOrder.memory.globals name v hv)

theorem safe_setFrame {f : Frame → Frame} (h : ∀ fr, fr.Known w.scene → (f fr).Known w.scene) :
    Safe (setFrame f) c w := by
  refine .read ?_
  cases c.frame with
  | none => exact .throw _
  | some id =>
    refine (sound_modifyMemory fun hm => ⟨hm.globals, fun fr hfr => ?_, hm.configs, hm.events⟩).safe
    obtain ⟨i, hi, rfl⟩ := Array.mem_iff_getElem.1 hfr
    rw [Array.getElem_modify]
    have hold := hm.frames _ (Array.getElem_mem (by simpa using hi))
    split
    · exact h _ hold
    · exact hold

theorem safe_assign (name : String) {v : Value} (hv : w.scene.Has v) :
    Safe (assign name v) c w := by
  refine .bind (sound_modifyMemory fun h => ?_) fun _ w₁ _ hw₁ => ?_
  · unfold Memory.see
    split
    · exact h
    · exact h.elsewhere ..
  refine (sound_isLocal name).bind fun b w₂ _ hw₂ => ?_
  have hv₂ : w₂.scene.Has v := by rwa [hw₂, hw₁]
  split
  · exact safe_setFrame fun fr h => ⟨h.children, h.config, h.locals.set name hv₂⟩
  · exact (sound_modifyMemory fun h =>
      ⟨h.globals.set name hv₂, h.frames, h.configs, h.events⟩).safe

theorem safe_store (dest : Dest) {v : Value} (hv : w.scene.Has v) : Safe (store dest v) c w := by
  unfold store
  cases dest with
  | none => exact .scene (.pure trivial)
  | some name => exact (safe_assign name hv).bind fun _ _ _ _ => .scene (.pure trivial)

theorem safe_storeNode (dest : Dest) {n : Option NodeId}
    (h : ∀ m, n = some m → m < w.scene.tree.size) : Safe (storeNode dest n) c w := by
  refine safe_store dest ?_
  cases n with
  | none => exact Scene.has_of_elements_nil rfl
  | some n => exact Scene.has_node_iff.2 (h n rfl)

theorem safe_makeNamed {f : Scene → Nat × Scene} {g : Nat → Memory → Memory}
    (h : Act w.scene (f w.scene).2) (hlog : noted.logOf ⟨(f w.scene).2, w.program⟩ = noted.logOf w)
    (hg : ∀ id (s : Scene) (m : Memory), m.Known s → (g id m).Known s) :
    Safe (do let id ← making f; modifyMemory (g id); pure id) c w := by
  have hmade : Safe (making f) c w := sound_making (.single h) hlog trivial
  refine hmade.andThen fun id w₁ _ => ?_
  exact (sound_modifyMemory (hg id _ _)).safe.andThen fun _ _ _ => .pure trivial

theorem safe_refsNamed (name : String) : Safe (refsNamed name) c w := by
  unfold refsNamed
  split
  · exact sound_frame.bind fun f _ _ _ => .pure trivial
  · refine .memory ?_
    split
    · exact .pure trivial
    · exact safe_makeNamed (g := fun id m => { m with refs := m.refs.set name id })
        (.makeRefs _) rfl fun _ _ _ h => h.elsewhere ..

theorem safe_sinkNamed (name : Option String) : Safe (sinkNamed name) c w := by
  unfold sinkNamed
  simp only
  split
  · exact sound_frame.bind fun f _ _ _ => .pure trivial
  · refine .memory ?_
    split
    · exact .pure trivial
    · exact safe_makeNamed (g := fun id m => { m with sinks := m.sinks.set _ id }) (.makeSink _) rfl
        fun _ _ _ h => h.elsewhere ..

theorem sound_configNamed (name : String) : Sound (configNamed name) c w Scene.HasAll := by
  unfold configNamed
  split
  · exact sound_frame.bind fun f _ _ hf => .pure hf.config
  · exact .memory (.ready fun hr => .pure (hr.inOrder.memory.configs.getD name .empty))

theorem safe_saveConfig (name : String) {config : Config} (h : w.scene.HasAll config) :
    Safe (saveConfig name config) c w :=
  (sound_modifyMemory fun hm => ⟨hm.globals, hm.frames, hm.configs.set name h, hm.events⟩).safe

theorem safe_saveTable (name : String) (l : Listeners) : Safe (saveTable name l) c w :=
  (sound_modifyMemory fun h => h.elsewhere ..).safe

theorem safe_tableNamed (name : String) : Safe (tableNamed name) c w := .memory (.pure trivial)

theorem sound_eventNamed (name : Option String) : Sound (eventNamed name) c w EventKnown := by
  unfold eventNamed
  cases name with
  | some name =>
    exact .memory (.ready fun hr => sound_need fun e he => hr.inOrder.memory.events name e he)
  | none =>
    obtain ⟨_, _, _, role⟩ := c
    cases role with
    | handler e => exact .read (.ready fun hr => .pure hr.role)
    | body | method | gotParent => exact .throw _

theorem safe_saveEvent (name : String) {e : Event} (h : EventKnown w.scene e) :
    Safe (saveEvent name e) c w :=
  (sound_modifyMemory fun hm => ⟨hm.globals, hm.frames, hm.configs, hm.events.set name h⟩).safe

theorem safe_documentNamed (name : String) : Safe (documentNamed name) c w :=
  .memory (sound_need fun _ _ => trivial)

theorem safe_engineNamed (name : Option String) : Safe (engineNamed name) c w := by
  unfold engineNamed
  cases name with
  | some name => exact .memory (sound_need fun _ _ => trivial)
  | none =>
    refine .read ?_
    split
    · exact sound_frame.bind fun _ _ _ _ => .pure trivial
    · exact .memory (sound_need fun _ _ => trivial)

theorem safe_makerNamed (name : Option String) : Safe (makerNamed name) c w := by
  unfold makerNamed
  split
  · exact .pure trivial
  · exact safe_engineNamed name

theorem safe_closure (callback : String) : Safe (closure callback) c w := by
  have hserial : Safe (making Scene.takeSerial) c w :=
    sound_making (.single (.takeSerial _)) rfl trivial
  exact hserial.andThen fun _ _ _ => .read (.pure trivial)

theorem sound_callMethod (m : Closure) {args : List Value} (h : ∀ v ∈ args, w.scene.Has v) :
    Sound (callMethod m args) c w Scene.Has :=
  .read (sound_modifyGet fun hr => hr.serves.invokes m hr.inOrder h)

theorem safe_changingTable (name : String) {act : Listeners → Run Listeners}
    (h : ∀ l w', w.scene.Extends w'.scene → Safe (act l) c w') :
    Safe (changingTable name act) c w := by
  refine (safe_tableNamed name).andThen fun old w₁ hx₁ => ?_
  refine (safe_saveTable name _).andThen fun _ w₂ hx₂ => ?_
  have hact : Safe (holding (nodesOf old.values) (act old)) c w₂ :=
    sound_holding _ fun w₃ hw₃ => h old w₃ (hw₃ ▸ hx₁.trans hx₂)
  refine hact.outcome.bind fun r w₄ _ _ => ?_
  cases r with
  | ok new => exact safe_saveTable name new
  | error e => exact (safe_saveTable name _).andThen fun _ _ _ => .throw e

end

end UiTree.Script
