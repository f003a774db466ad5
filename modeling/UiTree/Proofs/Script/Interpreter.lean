import UiTree.Proofs.Notices.Conservation
import UiTree.Proofs.Script.Exec
set_option autoImplicit false

/-!
The bodies and callbacks of a script, and whole scripts. Calls go one level down each time, so the
proof is by induction on the levels that are left: code that runs with behaviours that serve it is
sound, and so the behaviours made of it serve the code above.

A script's reports then show every callback that was told a parent, and each of them once.
-/

namespace UiTree.Script

open Relation
open Run
open Course (Account Follows Reachable Steps callsOf)

variable {p : Program} {b : Behaviours Memory} {w : World Memory}

theorem sound_bodyOf {c : Context} (text : ComponentText) :
    Sound (bodyOf text) c w Scene.Knows := by
  refine (safe_execSteps false text.body).andThen fun _ w₁ _ => ?_
  split
  · exact sound_evalShape _
  · exact sound_fragment fun e he => by cases he

theorem sound_callbackBody {c : Context} (text : CallbackText) :
    Sound (callbackBody text) c w Scene.Has := by
  refine (safe_execSteps true text.body).andThen fun _ w₁ _ => ?_
  split
  · refine (sound_evalExpr _).outcome.bind fun r w₂ _ hr => ?_
    cases r with
    | ok v => exact .pure (hr v rfl)
    | error e => exact .pure (Scene.has_of_elements_nil rfl)
  · exact .pure (Scene.has_of_elements_nil rfl)

theorem sound_listening {c : Context} (e : Event) {act : Run Value}
    (h : ∀ w, Sound act c w Scene.Has) : Sound (listening e act) c w Scene.Has := by
  refine sound_holding _ fun w₁ _ => (h w₁).safe.andThen fun _ w₂ _ => ?_
  exact safe_letGo.andThen fun _ _ _ => .pure (Scene.has_of_elements_nil rfl)

def Answers (w : World Memory) (result : Value × World Memory) : Prop :=
  noted.Leads [] w result.2 ∧ InOrder result.2 ∧ result.2.scene.Has result.1

theorem answers_runCallback (hb : Serves b) (callback : Closure) {role : Role}
    {around : Run Value → Run Value}
    (haround : ∀ (c : Context) (act : Run Value), (∀ w, Sound act c w Scene.Has) →
      ∀ w, Sound (around act) c w Scene.Has)
    (hw : InOrder w) (hrole : role.Known w.scene) :
    Answers w (runCallback p b callback role around w) := by
  have hbody : ∀ w, Sound (holding role.nodes (callbackBody (p.callback callback.code)))
      ⟨p, b, callback.frame, role⟩ w Scene.Has :=
    fun w => sound_holding _ fun w₁ _ => sound_callbackBody _
  obtain ⟨hlead, horder, hvalue⟩ := haround _ _ hbody w ⟨hb, hrole, hw⟩
  unfold runCallback
  split
  · rename_i v w' hrun
    rw [hrun] at hlead horder hvalue
    exact ⟨hlead, horder, hvalue v rfl⟩
  · rename_i e w' hrun
    rw [hrun] at hlead horder
    exact ⟨hlead, horder, Scene.has_of_elements_nil rfl⟩

/-- A callback that is told its parent notes this before anything else. -/
theorem leads_gotParentReport (hw : InOrder w) (c : Closure) (parent : NodeId) :
    let w' := w.note (gotParentReport w.scene c parent)
    noted.Leads [(.callback c, parent)] w w' ∧ InOrder w' := by
  intro w'
  refine ⟨fun ks l => ⟨l, .single (.act (.journal _ _)), [], by simp, ?_⟩, hw.act (.journal _ _)⟩
  have htold : toldIn (gotParentReport w.scene c parent) = some (c.code, (parent.number : Int)) :=
    rfl
  change (w.scene.note _).notes.filterMap toldIn = w.scene.notes.filterMap toldIn ++ _
  rw [Scene.notes_note, List.filterMap_append]
  simp [htold, noted, callsOf]

theorem answers_invokeWith (hb : Serves b) (c : Closure) {args : List Value} (hw : InOrder w)
    (hargs : HasEach w.scene args) : Answers w (invokeWith p b c args w) := by
  have hnoted := leads_note hw (r := methodReport w.scene c args) rfl
  have hrun : Answers _ (runCallback p b c (.method args) id (w.note _)) :=
    answers_runCallback hb c (fun _ _ h => h) hnoted.2 hargs
  exact ⟨hnoted.1.trans hrun.1, hrun.2⟩

theorem leads_notifyWith (hb : Serves b) (c : Closure) {parent : NodeId} (hw : InOrder w)
    (hp : parent < w.scene.tree.size) :
    noted.Leads [(.callback c, parent)] w (notifyWith p b c parent w) ∧
      InOrder (notifyWith p b c parent w) := by
  obtain ⟨htold, horder⟩ := leads_gotParentReport hw c parent
  have hrun : Answers _ (runCallback p b c (.gotParent parent) id (w.note _)) :=
    answers_runCallback hb c (fun _ _ h => h) horder hp
  exact ⟨htold.trans hrun.1, hrun.2.1⟩

theorem leads_handleWith (hb : Serves b) (c : Closure) {e : Event} (hw : InOrder w)
    (he : EventKnown w.scene e) :
    noted.Leads [] w (handleWith p b c e w) ∧ InOrder (handleWith p b c e w) := by
  have hnoted := leads_note hw (r := callReport c "handler" (eventFields w.scene e)) rfl
  have hrun : Answers _ (runCallback p b c (.handler e) (listening e) (w.note _)) :=
    answers_runCallback hb c (fun _ _ h _ => sound_listening e h) hnoted.2 he
  exact ⟨hnoted.1.trans hrun.1, hrun.2.1⟩

theorem leads_respondWith (hb : Serves b) (c : Closure) {args : List Value} (e : Event)
    (hw : InOrder w) (hargs : HasEach w.scene args) :
    noted.Leads [] w (respondWith p b c args e w) ∧ InOrder (respondWith p b c args e w) := by
  have hnoted := leads_note hw (r := methodReport w.scene c args) rfl
  have hrun : Answers _ (runCallback p b c (.method args) (listening e) (w.note _)) :=
    answers_runCallback hb c (fun _ _ h _ => sound_listening e h) hnoted.2 hargs
  exact ⟨hnoted.1.trans hrun.1, hrun.2.1⟩

theorem completes_renderWith (hb : Serves b) (c : Component) {props : Props} (hw : InOrder w)
    (hchildren : NodesIn w.scene props.children) (hconfig : w.scene.HasAll props.config) :
    Follows.Completes noted InOrder w (renderWith p b c props w) := by
  have hnoted := leads_note hw (r := enterReport w.scene c props) rfl
  let inner : World Memory := { w.note (enterReport w.scene c props) with
    program := { w.program with frames := w.program.frames.push ⟨props, .empty⟩ } }
  have hinner : InOrder inner := by
    obtain ⟨hlinks, hrefs, hmemory⟩ := hnoted.2
    refine ⟨hlinks, hrefs, hmemory.globals, fun f hf => ?_, hmemory.configs, hmemory.events⟩
    rcases Array.mem_push.1 hf with hf | rfl
    · exact hmemory.frames f hf
    · exact ⟨hchildren, hconfig, .empty⟩
  have hstart : noted.Leads [] w inner := hnoted.1.trans (leads_acts .refl rfl)
  let inside : Context := ⟨p, b, some w.program.frames.size, .body⟩
  have hbody : Sound (bodyOf (p.component c.code)) inside inner Scene.Knows := sound_bodyOf _
  obtain ⟨hlead, horder, hknown⟩ := hbody ⟨hb, trivial, hinner⟩
  simp only [renderWith]
  split
  · rename_i e w' hend
    have hrun : (bodyOf (p.component c.code)).start inside inner = (.ok e, w') := hend
    rw [hrun] at hlead horder hknown
    refine ⟨hstart.trans hlead, horder, fun e he => ?_⟩
    cases he
    exact hknown e rfl
  · rename_i f w' hend
    have hrun : (bodyOf (p.component c.code)).start inside inner = (.error f, w') := hend
    rw [hrun] at hlead horder
    exact ⟨hstart.trans hlead, horder, fun e he => by cases he⟩

theorem serves_behaviours (p : Program) (depth : Nat) : Serves (behaviours p depth) := by
  have hnode : ∀ {s : Scene} {n : NodeId}, n < s.tree.size → HasEach s [.node n] :=
    fun hn => List.forall_mem_singleton.2 (Scene.has_node_iff.2 hn)
  induction depth with
  | zero =>
    exact {
      follows := {
        stepped := fun hw hs => hw.stepped hs
        fits := fun h hx => hx.hasAll h
        render := fun c _ hw _ _ => ⟨.refl _, hw, fun e he => by cases he⟩
        notify := fun c p hw _ => leads_gotParentReport hw c p
        invoke := fun c _ hw _ => ⟨(Account.Leads.refl _).of_shows_nil rfl, hw⟩
        handle := fun c _ hw _ _ => ⟨.refl _, hw⟩
        respond := fun c _ hw _ _ => ⟨.refl _, hw⟩ }
      invokes := fun c _ hw _ => ⟨.refl _, hw, Scene.has_of_elements_nil rfl⟩ }
  | succ depth ih =>
    have hinvoke : ∀ {w : World Memory} (c : Closure) {args : List Value}, InOrder w →
        HasEach w.scene args → Answers w (invokeWith p (behaviours p depth) c args w) :=
      fun c _ hw hargs => answers_invokeWith ih c hw hargs
    exact {
      follows := {
        stepped := fun hw hs => hw.stepped hs
        fits := fun h hx => hx.hasAll h
        render := fun c _ hw hn hc => completes_renderWith ih c hw hn hc
        notify := fun c _ hw hp => leads_notifyWith ih c hw hp
        invoke := fun c _ hw hp =>
          ⟨(hinvoke c hw (hnode hp)).1.of_shows_nil rfl, (hinvoke c hw (hnode hp)).2.1⟩
        handle := fun c _ hw ht hc => leads_handleWith ih c hw ⟨ht, hc⟩
        respond := fun c e hw ht _ => leads_respondWith ih c e hw (hnode ht) }
      invokes := hinvoke }

/-- The callbacks that were told a parent, as the report of one operation shows them. -/
def toldInStep : Report → List (String × Int)
  | .record fields =>
    match fields.lookup "log" with
    | some (.list entries) => entries.filterMap toldIn
    | _ => []
  | _ => []

theorem filterMap_entryReport (entries : List Entry) :
    (entries.map entryReport).filterMap toldIn =
      (entries.filterMap Entry.note?).filterMap toldIn := by
  induction entries with
  | nil => rfl
  | cons entry rest ih =>
    cases entry with
    | message level text =>
      have hnone : toldIn (entryReport (.message level text)) = none := rfl
      rw [List.map_cons, List.filterMap_cons_none hnone, ih, List.filterMap_cons_none rfl]
    | note r => simp [entryReport, Entry.note?, ih, List.filterMap_cons]

theorem toldInStep_stepReport (result : Except Failure Report) (entries : List Entry) :
    toldInStep (stepReport result entries) =
      (entries.filterMap Entry.note?).filterMap toldIn := by
  have hlog : ∀ answer : List (String × Report), answer.lookup "log" = none →
      toldInStep (.record (answer ++ if entries.isEmpty then []
        else [("log", .list (entries.map entryReport))])) =
      (entries.filterMap Entry.note?).filterMap toldIn := by
    intro answer hnone
    cases entries with
    | nil => simp [toldInStep, hnone]
    | cons entry rest =>
      rw [← filterMap_entryReport]
      simp [toldInStep, List.lookup_append, hnone]
  cases result with
  | ok r => exact hlog _ rfl
  | error e =>
    refine hlog _ ?_
    cases e with
    | misuse => rfl
    | error e => cases e <;> rfl

/-- One operation of a script. It begins with an empty journal and leaves it empty, so that its
report shows what it has told and nothing else. -/
theorem ready_topStep {c : Context} (hr : Ready c w) (hempty : w.scene.journal.entries = [])
    (s : Step) (l : Course.Ledger) :
    Ready c (topStep c w s).2 ∧ (topStep c w s).2.scene.journal.entries = [] ∧ ∃ l' told,
      Steps ⟨w.scene, [.code], l⟩ ⟨(topStep c w s).2.scene, [.code], l'⟩ ∧
        l'.told = l.told ++ told ∧
        toldInStep (topStep c w s).1 = (callsOf told).flatMap noted.shows := by
  obtain ⟨label, caught, op⟩ := s
  have hop : Safe (execOp op) c w := safe_execOp op
  obtain ⟨hlead, horder, -⟩ := hop hr
  obtain ⟨l', hsteps, told, htold, hlog⟩ := hlead [] l
  have hclear : Course.Act ((execOp op).start c w).2.scene _ := .journal _
    { ((execOp op).start c w).2.scene.journal with entries := [] }
  refine ⟨⟨hr.serves, hr.role.mono (hlead.grows.trans hclear.grows), horder.act hclear⟩, rfl, l',
    told, hsteps.tail (.act hclear), htold, ?_⟩
  have hstart : noted.logOf w = [] := by
    change (w.scene.journal.entries.filterMap Entry.note?).reverse.filterMap toldIn = []
    rw [hempty]
    rfl
  rw [hstart] at hlog
  refine (toldInStep_stepReport _ _).trans (Eq.trans ?_ hlog)
  rw [List.filterMap_reverse]
  rfl

theorem ready_topSteps {c : Context} (steps : List Step) {w : World Memory} (hr : Ready c w)
    (hempty : w.scene.journal.entries = []) (l : Course.Ledger) :
    ∃ l' told, Steps ⟨w.scene, [.code], l⟩ ⟨(topSteps c w steps).2.scene, [.code], l'⟩ ∧
      l'.told = l.told ++ told ∧
      (topSteps c w steps).1.flatMap toldInStep = (callsOf told).flatMap noted.shows := by
  induction steps generalizing w l with
  | nil => exact ⟨l, [], .refl, by simp, rfl⟩
  | cons s rest ih =>
    obtain ⟨hr', hempty', l₁, told, hsteps, htold, hreport⟩ := ready_topStep hr hempty s l
    obtain ⟨l₂, told', hsteps', htold', hreports⟩ := ih hr' hempty' l₁
    refine ⟨l₂, told ++ told', hsteps.trans hsteps', ?_, ?_⟩
    · rw [htold', htold, List.append_assoc]
    · have hcalls : (callsOf (told ++ told')).flatMap noted.shows =
          (callsOf told).flatMap noted.shows ++ (callsOf told').flatMap noted.shows := by
        simp [callsOf]
      exact (congrArg₂ (· ++ ·) hreport hreports).trans hcalls.symm

/-- Of every script: its run is a course of steps from nothing, and the callbacks that its reports
show with a parent are those of the notices that were told, one for each. No notice is told
twice. -/
theorem reports_show_tellings (s : Script) :
    ∃ l, Reachable ⟨s.run.2.scene, [.code], l⟩ ∧ (∀ x, (l.told.map Prod.fst).count x ≤ 1) ∧
      s.reports.flatMap toldInStep = (callsOf l.told).flatMap noted.shows := by
  have hr : Ready s.context s.start := ⟨serves_behaviours _ _, trivial, .start _ _ _⟩
  obtain ⟨l, told, hsteps, htold, hreports⟩ := ready_topSteps s.steps hr rfl ⟨[], []⟩
  have hreach : Reachable ⟨s.run.2.scene, [.code], l⟩ := ⟨s.level, hsteps⟩
  refine ⟨l, hreach, (hreach.conserved .refl).2.1, ?_⟩
  cases htold
  exact hreports

end UiTree.Script
