import UiTree.Proofs.Options.Events
set_option autoImplicit false

/-!
Any object, read as settings. Members with other keys are skipped, whatever their values have
inside; the reader keeps the brackets it is in and comes out where it went in. What is read
therefore depends on the values of the members with the key `events` alone.
-/

namespace UiTree.Options

def Json.string? : Json → Option String
  | .string s => some s
  | _ => none

def Json.strings? : Json → Option (List String)
  | .list vs => vs.mapM Json.string?
  | _ => none

theorem Json.mapM_string?_eq_some_iff {vs : List Json} {ss : List String} :
    vs.mapM Json.string? = some ss ↔ vs = ss.map .string := by
  induction vs generalizing ss with
  | nil => cases ss <;> simp
  | cons v vs ih =>
    rw [List.mapM_cons]
    cases v with
    | string s =>
      cases ss with
      | nil => simp [Json.string?, Option.bind_eq_some_iff]
      | cons t ss =>
        rw [List.map_cons, List.cons.injEq, Json.string.injEq, ← ih]
        cases vs.mapM Json.string? <;> simp [Json.string?]
    | _ => cases ss <;> simp [Json.string?]

theorem Json.strings?_eq_some_iff {v : Json} {ss : List String} :
    v.strings? = some ss ↔ v = .list (ss.map .string) := by
  cases v with
  | list vs => rw [Json.strings?, Json.mapM_string?_eq_some_iff, Json.list.injEq]
  | _ => simp [Json.strings?]

theorem Json.strings?_eq_none_iff {v : Json} : v.strings? = none ↔ ∀ ss : List String,
    v ≠ .list (ss.map .string) := by
  simp [Option.eq_none_iff_forall_ne_some, Json.strings?_eq_some_iff]

namespace Reader

def resume (found : Option (List String)) : List Bracket → Reader
  | [] => .member found
  | b :: around => .skipping found (.between b around)

variable {found : Option (List String)} {around : List Bracket} {rest : List Char}

theorem run_congr {r r' : Reader} {c : Char} {tail : List Char} (h : r.step c = r'.step c) :
    r.run (c :: tail) = r'.run (c :: tail) := by
  change (r.step c >>= fun t => t.run tail) = (r'.step c >>= fun t => t.run tail)
  rw [h]

theorem rests_skipping (found : Option (List String)) {s : Skip}
    (hs : ∀ c, isBlank c = true → s.step c = .ok (.more s)) (hend : s.atEnd = .truncated) :
    Rests (skipping found s) where
  wants := congrArg Except.error hend
  blank c hc := by
    rw [step, hs c hc]
    rfl

theorem rests_resume (found : Option (List String)) (around : List Bracket) :
    Rests (resume found around) := by
  cases around with
  | nil => exact rests_member found
  | cons b around =>
    refine rests_skipping found (fun c hc => ?_) rfl
    simp [Skip.step, Skip.betweenStep, hc]

theorem run_after (found : Option (List String)) (around : List Bracket) {s : Skip} {c : Char}
    (h : s.step c = .ok (Skip.after around)) (rest : List Char) :
    (skipping found s).run (c :: rest) = (resume found around).run rest := by
  refine run_cons_of_ok ?_ rest
  rw [step, h]
  cases around <;> rfl

theorem run_more (found : Option (List String)) {s s' : Skip} {c : Char}
    (h : s.step c = .ok (.more s')) (rest : List Char) :
    (skipping found s).run (c :: rest) = (skipping found s').run rest := by
  refine run_cons_of_ok ?_ rest
  rw [step, h]
  rfl

theorem run_lexeme {l : Lexeme} {cs : List Char} (h : l.Reads cs) (hrest : Follows rest) :
    (skipping found (.lexeme l around)).run (cs ++ rest) = (resume found around).run rest := by
  induction h with
  | @letter x y more cs _ ih =>
    have hstep : (Skip.lexeme (.word (x :: y :: more)) around).step x =
        .ok (.more (.lexeme (.word (y :: more)) around)) := by
      simp [Skip.step, Skip.lexemeStep, wordStep, bind, Except.bind, pure, Except.pure]
    exact (run_more found hstep _).trans ih
  | lastLetter x =>
    have hstep : (Skip.lexeme (.word [x]) around).step x = .ok (Skip.after around) := by
      simp [Skip.step, Skip.lexemeStep, wordStep, bind, Except.bind, pure, Except.pure]
    exact run_after found around hstep rest
  | @digit n n' c cs hc _ ih =>
    have hstep : (Skip.lexeme (.number n) around).step c =
        .ok (.more (.lexeme (.number n') around)) := by
      simp [Skip.step, Skip.lexemeStep, hc, bind, Except.bind, pure, Except.pure]
    exact (run_more found hstep _).trans ih
  | @complete n hn =>
    obtain ⟨c, tail, rfl, hc⟩ := hrest
    refine run_congr ?_
    have hend := NumberReader.step_of_complete hn hc
    cases around with
    | nil =>
      simp [step, Skip.step, Skip.lexemeStep, hend, resume, bind, Except.bind, pure, Except.pure]
    | cons b around =>
      simp [step, Skip.step, Skip.lexemeStep, hend, resume, bind, Except.bind, pure, Except.pure]
  | @char s s' c cs hc _ ih =>
    have hstep : (Skip.lexeme (.text s) around).step c =
        .ok (.more (.lexeme (.text s') around)) := by
      simp [Skip.step, Skip.lexemeStep, hc, bind, Except.bind, pure, Except.pure]
    exact (run_more found hstep _).trans ih
  | quote p text =>
    have hstep : (Skip.lexeme (.text ⟨p, text, .plain⟩) around).step '"' =
      .ok (Skip.after around) := rfl
    exact run_after found around hstep rest

theorem run_start {cs : List Char} (h : Lexeme.Starts false cs) (hrest : Follows rest) :
    (skipping found (.value around)).run (cs ++ rest) = (resume found around).run rest := by
  obtain ⟨c, tail, l, rfl, hl, hread⟩ := h
  have hstep : (Skip.value around).step c = .ok (.more (.lexeme l around)) := by
    simp [Skip.step, Skip.start, hl, (Lexeme.of_start? hl).1]
  exact (run_more found hstep _).trans (run_lexeme hread hrest)

structure ValueDue (r : Reader) (found : Option (List String)) (around : List Bracket) :
    Prop extends Rests r where
  start : ∀ c, isBlank c = false → c ≠ ']' → r.step c = (skipping found (.value around)).step c

theorem valueDue_value (found : Option (List String)) (around : List Bracket) :
    ValueDue (skipping found (.value around)) found around where
  toRests := rests_skipping found (fun c hc => by simp [Skip.step, hc]) rfl
  start _ _ _ := rfl

theorem valueDue_opened (found : Option (List String)) (around : List Bracket) :
    ValueDue (skipping found (.opened .list around)) found (.list :: around) where
  toRests := rests_skipping found (fun c hc => by simp [Skip.step, hc]) rfl
  start c hc hend := by
    have hclosing : c ≠ Bracket.list.closing := hend
    simp only [step, Skip.step, hc, Bool.false_eq_true, if_false, if_neg hclosing]

structure SkipKeyDue (r : Reader) (found : Option (List String)) (around : List Bracket) :
    Prop extends Rests r where
  quote : r.step '"' = .ok (skipping found (.keyText (.opened false) around))

theorem skipKeyDue_key (found : Option (List String)) (around : List Bracket) :
    SkipKeyDue (skipping found (.key around)) found around where
  toRests := rests_skipping found (fun c hc => by simp [Skip.step, hc]) rfl
  quote := rfl

theorem skipKeyDue_opened (found : Option (List String)) (around : List Bracket) :
    SkipKeyDue (skipping found (.opened .object around)) found around where
  toRests := rests_skipping found (fun c hc => by simp [Skip.step, hc]) rfl
  quote := rfl

theorem hosts_skipKeyText (found : Option (List String)) (around : List Bracket) :
    Hosts fun s => skipping found (.keyText s around) where
  wants _ := rfl
  more s s' c h := by
    rw [step, Skip.step, h]
    rfl

theorem SkipKeyDue.leads_colon {r : Reader} (hr : r.SkipKeyDue found around) {k : String}
    {b b' ks : List Char} (hb : Blank b) (hk : Quotes k ks) (hb' : Blank b') :
    r.Leads (b ++ ks ++ b' ++ [':']) (skipping found (.value (.object :: around))) := by
  obtain ⟨init, text, rfl, -, hbody⟩ :=
    (hosts_skipKeyText found around).leads_body false hr.wants hr.quote hk
  have hquote : (skipping found (.keyText ⟨false, text, .plain⟩ around)).step '"' =
    .ok (skipping found (.colon around)) := rfl
  have hcolon :
    (skipping found (.colon around)).step ':' = .ok (skipping found (.value (.object :: around))) :=
    rfl
  have hrests : Rests (skipping found (.colon around)) :=
    rests_skipping found (fun c hc => by simp [Skip.step, hc]) rfl
  have hname := ((hr.leads hb).append hbody).append (.step rfl hquote (hrests.leads hb'))
  have hall := hname.append (.step rfl hcolon (.here _))
  simpa using hall

-- One recursion over how the value is written. The brackets around are arbitrary, since they grow
-- on the way in.
mutual

/-- A value is skipped to its end, and the brackets around it are those from before. -/
theorem run_value : ∀ {v : Json} {cs : List Char}, Writes v cs → ∀ {found : Option (List String)}
    {around : List Bracket} {rest : List Char}, Follows rest →
    (skipping found (.value around)).run (cs ++ rest) = (resume found around).run rest
  | _, _, .null, _, _, _, hrest => run_start (Lexeme.starts_word false rfl) hrest
  | _, _, .bool true, _, _, _, hrest => run_start (Lexeme.starts_word false rfl) hrest
  | _, _, .bool false, _, _, _, hrest => run_start (Lexeme.starts_word false rfl) hrest
  | _, _, .number n, _, _, _, hrest => run_start (Lexeme.starts_number false n) hrest
  | _, _, .string h, _, _, _, hrest => run_start (Lexeme.starts_string false h) hrest
  | _, _, .noItems hb, found, around, rest, _ => by
    have hopen : (Skip.value around).step '[' = .ok (.more (.opened .list around)) := rfl
    have hclose : (Skip.opened .list around).step ']' = .ok (Skip.after around) := rfl
    rw [List.cons_append, List.cons_append, run_more found hopen, List.append_assoc,
      ((valueDue_opened found around).leads hb).run_append]
    exact run_after found around hclose rest
  | _, _, .items h, found, around, rest, _ => by
    have hopen : (Skip.value around).step '[' = .ok (.more (.opened .list around)) := rfl
    rw [List.cons_append, List.cons_append, run_more found hopen, List.append_assoc]
    exact run_items h (valueDue_opened found around)
  | _, _, .noMembers hb, found, around, rest, _ => by
    have hopen : (Skip.value around).step '\x7b' = .ok (.more (.opened .object around)) := rfl
    have hclose : (Skip.opened .object around).step '\x7d' = .ok (Skip.after around) := rfl
    rw [List.cons_append, List.cons_append, run_more found hopen, List.append_assoc,
      ((skipKeyDue_opened found around).leads hb).run_append]
    exact run_after found around hclose rest
  | _, _, .members h, found, around, rest, _ => by
    have hopen : (Skip.value around).step '\x7b' = .ok (.more (.opened .object around)) := rfl
    rw [List.cons_append, List.cons_append, run_more found hopen, List.append_assoc]
    exact run_members h (skipKeyDue_opened found around)

theorem run_padded : ∀ {v : Json} {cs : List Char}, Padded v cs →
    ∀ {r : Reader} {found : Option (List String)} {around : List Bracket} {rest : List Char},
      r.ValueDue found around → Follows rest →
    r.run (cs ++ rest) = (resume found around).run rest
  | _, _, @Padded.mk b b' cs v hb hv hb', r, found, around, rest, hr, hrest => by
    have hvalue : r.run (cs ++ (b' ++ rest)) = (resume found around).run (b' ++ rest) := by
      rw [← run_value hv (hrest.blank hb')]
      obtain ⟨c, tail, rfl, hc, hend⟩ := hv.head
      exact run_congr (hr.start c hc hend)
    rw [List.append_assoc, List.append_assoc, (hr.leads hb).run_append, hvalue,
      ((rests_resume found around).leads hb').run_append]

theorem run_items : ∀ {vs : List Json} {cs : List Char}, WritesItems vs cs → ∀ {r : Reader}
    {found : Option (List String)} {around : List Bracket} {rest : List Char},
      r.ValueDue found (.list :: around) →
    r.run (cs ++ ']' :: rest) = (resume found around).run rest
  | _, _, .last hv, r, found, around, rest, hr => by
    have hclose : (Skip.between .list around).step ']' = .ok (Skip.after around) := rfl
    rw [run_padded hv hr ⟨']', rest, rfl, by decide⟩]
    exact run_after found around hclose rest
  | _, _, .more hv hvs, r, found, around, rest, hr => by
    have hcomma : (Skip.between .list around).step ',' = .ok (.more (.value (.list :: around))) :=
      rfl
    rw [List.append_assoc, List.cons_append, run_padded hv hr ⟨',', _, rfl, by decide⟩]
    exact (run_more found hcomma _).trans (run_items hvs (valueDue_value found _))

theorem run_member : ∀ {m : String × Json} {cs : List Char}, WritesMember m cs → ∀ {r : Reader}
    {found : Option (List String)} {around : List Bracket} {rest : List Char},
      r.SkipKeyDue found around →
    Follows rest → r.run (cs ++ rest) = (resume found (.object :: around)).run rest
  | _, _, .mk hb hk hb' hv, r, found, around, rest, hr, hrest => by
    rw [List.append_assoc, (hr.leads_colon hb hk hb').run_append]
    exact run_padded hv (valueDue_value found (.object :: around)) hrest

theorem run_members : ∀ {ms : List (String × Json)} {cs : List Char}, WritesMembers ms cs →
    ∀ {r : Reader} {found : Option (List String)} {around : List Bracket} {rest : List Char},
      r.SkipKeyDue found around →
    r.run (cs ++ '\x7d' :: rest) = (resume found around).run rest
  | _, _, .last hm, r, found, around, rest, hr => by
    have hclose : (Skip.between .object around).step '\x7d' = .ok (Skip.after around) := rfl
    rw [run_member hm hr ⟨'\x7d', rest, rfl, by decide⟩]
    exact run_after found around hclose rest
  | _, _, .more hm hms, r, found, around, rest, hr => by
    have hcomma : (Skip.between .object around).step ',' = .ok (.more (.key around)) := rfl
    rw [List.append_assoc, List.cons_append, run_member hm hr ⟨',', _, rfl, by decide⟩]
    exact (run_more found hcomma _).trans (run_members hms (skipKeyDue_key found around))

end

/-- The text is refused, and not for being too short. -/
def Refuses (r : Reader) (cs : List Char) : Prop := ∃ refusal, r.run cs = .error refusal ∧
    refusal ≠ .truncated

theorem refuses_of_error {r : Reader} {c : Char} (refusal : Refusal) (h : r.step c = .error refusal)
    (hne : refusal ≠ .truncated) (cs : List Char) : r.Refuses (c :: cs) := by
  refine ⟨refusal, ?_, hne⟩
  change (r.step c >>= fun t => t.run cs) = _
  rw [h]
  rfl

theorem Refuses.of_leads {r r' : Reader} {cs ds : List Char} (h : r.Leads cs r')
    (h' : r'.Refuses ds) : r.Refuses (cs ++ ds) := by
  obtain ⟨refusal, hrun, hne⟩ := h'
  exact ⟨refusal, (h.run_append ds).trans hrun, hne⟩

theorem Refuses.of_ok {r r' : Reader} {c : Char} {ds : List Char} (h : r.step c = .ok r')
    (h' : r'.Refuses ds) : r.Refuses (c :: ds) := by
  obtain ⟨refusal, hrun, hne⟩ := h'
  exact ⟨refusal, (run_cons_of_ok h ds).trans hrun, hne⟩

theorem refuses_mistyped {l : Lexeme} {cs : List Char} (h : l.Reads cs) (hrest : Follows rest) :
    (mistyped l).Refuses (cs ++ rest) := by
  induction h with
  | @letter x y more cs _ ih =>
    refine .of_ok ?_ ih
    simp [step, mistypedStep, wordStep, bind, Except.bind, pure, Except.pure]
  | lastLetter x =>
    refine refuses_of_error .mistyped ?_ (by decide) rest
    simp [step, mistypedStep, wordStep, bind, Except.bind]
  | @digit n n' c cs hc _ ih =>
    refine .of_ok ?_ ih
    simp [step, mistypedStep, hc, bind, Except.bind, pure, Except.pure]
  | @complete n hn =>
    obtain ⟨c, tail, rfl, hc⟩ := hrest
    refine refuses_of_error (mistypedNumber n) ?_ ?_ tail
    · simp [step, mistypedStep, NumberReader.step_of_complete hn hc, bind, Except.bind]
    · rw [mistypedNumber]
      split <;> decide
  | @char s s' c cs hc _ ih =>
    refine .of_ok ?_ ih
    simp [step, mistypedStep, hc, bind, Except.bind, pure, Except.pure]
  | quote p text => exact refuses_of_error .mistyped rfl (by decide) rest

theorem refuses_other {r : Reader} {v : Json} {cs : List Char} (h : Writes v cs)
    (hr : ∀ c tail, cs = c :: tail → r.step c = other c) (hrest : Follows rest) :
    r.Refuses (cs ++ rest) := by
  rcases h.starts true with ⟨_, body, -, rfl⟩ | ⟨_, body, -, rfl⟩ | ⟨c, tail, l, rfl, hl, hread⟩
  · exact refuses_of_error .mistyped (hr _ _ rfl) (by decide) _
  · exact refuses_of_error .mistyped (hr _ _ rfl) (by decide) _
  · have hother : other c = .ok (mistyped l) := by rw [other, hl]
    exact .of_ok ((hr c tail rfl).trans hother) (refuses_mistyped hread hrest)

theorem refuses_item {r : Reader} {home : Home} {items : List String} (hr : r.Due home items)
    {v : Json} {cs : List Char} (h : Padded v cs) (hv : ∀ s, v ≠ .string s) (hrest : Follows rest) :
    r.Refuses (cs ++ rest) := by
  cases h with
  | @mk b b' cs _ hb hw hb' =>
    rw [List.append_assoc, List.append_assoc]
    refine .of_leads (hr.leads hb) (refuses_other hw ?_ (hrest.blank hb'))
    rintro c tail rfl
    obtain ⟨_, _, heq, hc, hend⟩ := hw.head
    cases heq
    have hquote : c ≠ '"' := by
      rintro rfl
      obtain ⟨s, hs⟩ := hw.string_of_quote
      exact hv s hs
    rw [hr.start c hc hend, itemStart, if_neg hquote]

theorem refuses_items {r : Reader} {home : Home} {items : List String} (hr : r.Due home items)
    {vs : List Json} {cs : List Char} (h : WritesItems vs cs)
    (hvs : ∀ ss : List String, vs ≠ ss.map .string) (hrest : Follows rest) :
    r.Refuses (cs ++ rest) := by
  induction vs generalizing r items cs with
  | nil => cases h
  | cons v vs ih =>
    by_cases hv : ∃ s, v = .string s
    · obtain ⟨s, rfl⟩ := hv
      cases h with
      | last => exact absurd rfl (hvs [s])
      | more hs hmore =>
        have hcomma : (between home (items ++ [s])).step ',' = .ok (item home (items ++ [s])) := rfl
        rw [List.append_assoc]
        refine .of_leads (leads_item hr hs)
          (.of_ok hcomma (ih (due_item home _) hmore fun ss hss => ?_))
        exact hvs (s :: ss) (by rw [hss, List.map_cons])
    · replace hv : ∀ s, v ≠ .string s := fun s hs => hv ⟨s, hs⟩
      cases h with
      | last hw => exact refuses_item hr hw hv hrest
      | more hw hmore =>
        rw [List.append_assoc]
        exact refuses_item hr hw hv ⟨',', _, rfl, by decide⟩

theorem refuses_events {v : Json} {cs : List Char} (h : Padded v cs)
    (hv : ∀ ss : List String, v ≠ .list (ss.map .string)) (hrest : Follows rest) :
    (events .member).Refuses (cs ++ rest) := by
  cases h with
  | @mk b b' cs _ hb hw hb' =>
    rw [List.append_assoc, List.append_assoc]
    refine .of_leads ((rests_events .member).leads hb) ?_
    by_cases hlist : ∃ vs, v = .list vs
    · obtain ⟨vs, rfl⟩ := hlist
      cases hw with
      | noItems => exact absurd rfl (hv [])
      | items h =>
        have hopen : (events .member).step '[' = .ok (opening .member) := rfl
        have hend : Follows (']' :: (b' ++ rest)) := ⟨']', _, rfl, by decide⟩
        have hrefuse :=
          refuses_items (due_opening .member) h (fun ss hss => hv ss (congrArg Json.list hss)) hend
        simpa using Refuses.of_ok hopen hrefuse
    · refine refuses_other hw ?_ (hrest.blank hb')
      rintro c tail rfl
      have hc : isBlank c = false ∧ c ≠ '[' := by
        rcases hw.starts true with ⟨vs, _, rfl, -⟩ | ⟨_, _, -, heq⟩ | ⟨_, _, l, heq, hl, -⟩
        · exact absurd ⟨vs, rfl⟩ hlist
        · cases heq
          decide
        · cases heq
          exact ⟨(Lexeme.of_start? hl).1, (Lexeme.of_start? hl).2.1⟩
      simp [step, hc]

/-- What comes of a text: it leads to a place, or it is refused. -/
def Comes (r : Reader) (cs : List Char) (result : Option Reader) (rest : List Char) : Prop :=
  result.elim (r.Refuses (cs ++ rest)) fun r' => r.run (cs ++ rest) = r'.run rest

theorem Comes.of_run {r r' : Reader} {cs ds : List Char} {result : Option Reader}
    (h : r.run (cs ++ rest) = r'.run (ds ++ rest)) (h' : r'.Comes ds result rest) :
    r.Comes cs result rest := by
  cases result with
  | none =>
    obtain ⟨refusal, hrun, hne⟩ := h'
    exact ⟨refusal, h.trans hrun, hne⟩
  | some => exact h.trans h'

theorem Comes.bind {r : Reader} {cs ds : List Char} {note : Option (Option (List String))}
    {next : Option (List String) → Option Reader} (h : r.Comes cs (note.map member) (ds ++ rest))
    (hnext : ∀ f, (member f).Comes ds (next f) rest) : r.Comes (cs ++ ds)
    (note.bind next) rest := by
  cases note with
  | none =>
    rw [Comes, List.append_assoc]
    exact h
  | some f =>
    refine .of_run ?_ (hnext f)
    rw [List.append_assoc]
    exact h

def noteValue (found : Option (List String)) (v : Json) : Option (Option (List String)) :=
  if found.isSome then none else v.strings?.map some

def noteMember (found : Option (List String)) (m : String × Json) : Option (Option (List String)) :=
  if m.1 = "events" then noteValue found m.2 else some found

theorem KeyDue.comes_member {r : Reader} (hr : r.KeyDue found) {m : String × Json} {cs : List Char}
    (h : WritesMember m cs) (hrest : Follows rest) :
    r.Comes cs ((noteMember found m).map member) rest := by
  cases h with
  | @mk b b' ks cs k v hb hk hb' hv =>
    by_cases hevents : k = "events"
    · subst hevents
      cases hfound : found with
      | some ss =>
        subst hfound
        obtain ⟨init, r', rfl, hkey, -, hquote⟩ := hr.leads_key hb hk
        have hrefuse := Refuses.of_leads hkey
          (refuses_of_error .mistyped hquote (by decide) (b' ++ [':'] ++ cs ++ rest))
        simpa [Comes, noteMember, noteValue] using hrefuse
      | none =>
        subst hfound
        have hdone : keyDone none "events" = .ok (colon none true) := rfl
        have hcolon := hr.leads_colon hb hk hb' hdone
        cases hss : v.strings? with
        | none =>
          have hrefuse :=
            Refuses.of_leads hcolon (refuses_events hv (Json.strings?_eq_none_iff.1 hss) hrest)
          simpa [Comes, noteMember, noteValue, hss] using hrefuse
        | some ss =>
          obtain rfl := Json.strings?_eq_some_iff.1 hss
          have hmember := (leads_member hr (.mk hb hk hb' hv)).run_append rest
          simpa [Comes, noteMember, noteValue, hss] using hmember
    · have hdone : keyDone found k = .ok (colon found false) := by rw [keyDone, if_neg hevents]
      have hvalue := run_padded hv (valueDue_value found []) hrest
      have hmember := (hr.leads_colon hb hk hb' hdone).run_append (cs ++ rest)
      simpa [Comes, noteMember, hevents, resume] using hmember.trans hvalue

theorem KeyDue.comes_members {r : Reader} (hr : r.KeyDue found) {ms : List (String × Json)}
    {cs : List Char} (h : WritesMembers ms cs) (rest : List Char) :
    r.Comes (cs ++ ['\x7d'])
      ((ms.foldlM noteMember found).map fun f => .over ⟨f.getD usual.events⟩) rest := by
  induction ms generalizing r found cs with
  | nil => cases h
  | cons m ms ih =>
    rw [List.foldlM_cons, Option.bind_eq_bind, Option.map_bind]
    cases h with
    | last hm =>
      have hfollows : Follows (['\x7d'] ++ rest) := ⟨'\x7d', rest, rfl, by decide⟩
      refine (hr.comes_member hm hfollows).bind fun f => ?_
      have hclose : (member f).step '\x7d' = .ok (.over ⟨f.getD usual.events⟩) := rfl
      exact run_cons_of_ok hclose rest
    | @more _ _ cs ds hm hms =>
      have hfollows : Follows (',' :: (ds ++ ['\x7d']) ++ rest) := ⟨',', _, rfl, by decide⟩
      rw [List.append_assoc, List.cons_append]
      refine (hr.comes_member hm hfollows).bind fun f => ?_
      have hcomma : (member f).step ',' = .ok (key f) := rfl
      exact .of_run (run_cons_of_ok hcomma _) (ih (keyDue_key f) hms)

theorem rests_start : Rests start where
  wants := rfl
  blank c hc := by simp [step, hc]

theorem run_over_of_blank (o : Options) {b : List Char} (hb : Blank b) :
    (Reader.over o).run b = .ok (.over o) := by
  induction b with
  | nil => rfl
  | cons c b ih =>
    obtain ⟨hc, hb⟩ := List.cons_subset.1 hb
    have hstep : (Reader.over o).step c = .ok (.over o) := by simp [step, isBlank_of_mem hc]
    exact (run_cons_of_ok hstep b).trans (ih hb)

theorem comes_object {ms : List (String × Json)} {cs : List Char} (h : Writes (.object ms) cs)
    (rest : List Char) :
    start.Comes cs ((ms.foldlM noteMember none).map fun f => .over ⟨f.getD usual.events⟩) rest := by
  have hopen : start.step '\x7b' = .ok opened := rfl
  cases h with
  | noMembers hb =>
    have hclose : opened.step '\x7d' = .ok (.over usual) := rfl
    exact (Leads.step rfl hopen
      ((keyDue_opened.leads hb).append (.step rfl hclose (.here _)))).run_append rest
  | members hms => exact .of_run (run_cons_of_ok hopen _) (keyDue_opened.comes_members hms rest)

end Reader

def eventValues (ms : List (String × Json)) : List Json :=
  ms.filterMap fun m => if m.1 = "events" then some m.2 else none

theorem foldlM_noteMember (ms : List (String × Json)) (found : Option (List String)) :
    ms.foldlM Reader.noteMember found = (eventValues ms).foldlM Reader.noteValue found := by
  rw [eventValues, List.foldlM_filterMap]
  congr
  funext found m
  rw [Reader.noteMember]
  by_cases hm : m.1 = "events" <;> simp [hm]

theorem readJson_object {ms : List (String × Json)} {cs : List Char} (h : Padded (.object ms) cs) :
    ((eventValues ms).foldlM Reader.noteValue none).elim
      (∃ refusal, readJson cs = .error refusal ∧ refusal ≠ .truncated)
      fun f => readJson cs = .ok ⟨f.getD usual.events⟩ := by
  cases h with
  | @mk b b' cs _ hb hw hb' =>
    have hcomes := Reader.comes_object hw b'
    have hblank : Reader.start.run (b ++ cs ++ b') = Reader.start.run (cs ++ b') := by
      rw [List.append_assoc, (Reader.rests_start.leads hb).run_append]
    rw [foldlM_noteMember] at hcomes
    rw [readJson, hblank]
    cases hnote : (eventValues ms).foldlM Reader.noteValue none with
    | none =>
      rw [hnote] at hcomes
      obtain ⟨refusal, hrun, hne⟩ := hcomes
      exact ⟨refusal, by rw [hrun]; rfl, hne⟩
    | some f =>
      rw [hnote] at hcomes
      have hrun : Reader.start.run (cs ++ b') = .ok (.over ⟨f.getD usual.events⟩) :=
        hcomes.trans (Reader.run_over_of_blank _ hb')
      rw [Option.elim_some, hrun]
      rfl

theorem foldlM_noteValue_one (v : Json) :
    [v].foldlM Reader.noteValue none = v.strings?.map some := by
  simp [Reader.noteValue]

theorem foldlM_noteValue_more {values : List Json} (h : 2 ≤ values.length) :
    values.foldlM Reader.noteValue none = none := by
  rcases values with _ | ⟨v, _ | ⟨w, rest⟩⟩
  · cases h
  · simp at h
  · cases hv : v.strings? <;> simp [Reader.noteValue, hv]

/-- Of every object, by whatever text it is written: without a member `events` the settings are the
usual ones; with one such member, a list of strings, they are these strings; and in all other cases
the text is refused, though not as one that ends too early. -/
theorem ofJson_object (members : List (String × Json)) (text : String)
    (h : Padded (.object members) text.toList) :
    let values := eventValues members
    (values = [] → ofJson text = .ok usual) ∧
    (∀ items : List String, values = [.list (items.map .string)] → ofJson text = .ok ⟨items⟩) ∧
    (2 ≤ values.length ∨
      (∃ v, values = [v] ∧ ∀ items : List String, v ≠ .list (items.map .string)) →
      ∃ refusal, ofJson text = .error refusal ∧ refusal ≠ .truncated) := by
  intro values
  have hread : (values.foldlM Reader.noteValue none).elim _ _ := readJson_object h
  refine ⟨fun hnone => ?_, fun items hone => ?_, ?_⟩
  · rw [hnone] at hread
    exact hread
  · rw [hone, foldlM_noteValue_one, Json.strings?_eq_some_iff.2 rfl] at hread
    exact hread
  · rintro (hmore | ⟨v, hone, hv⟩)
    · rw [foldlM_noteValue_more hmore] at hread
      exact hread
    · rw [hone, foldlM_noteValue_one, Json.strings?_eq_none_iff.2 hv] at hread
      exact hread

theorem ofJson_object_of_nested :
    ofJson "\x7b \"a\": [-1.5, \x7b\x7d],\t\"\\u0065vents\":[\"x\"]\x7d" = .ok ⟨["x"]⟩ ∧
      ∃ refusal, ofJson "\x7b\"\\u0065vents\":null\x7d" = .error refusal ∧
        refusal ≠ .truncated := by
  have hnone : Blank [] := List.nil_subset _
  have hplain : ∀ cs : List Char, cs.all (fun c => c ≠ '"' ∧ c ≠ '\\' ∧ 0x20 ≤ c.toNat) →
      Spells cs cs := fun cs h => by
    induction cs with
    | nil => exact .nil
    | cons c cs ih =>
      rw [List.all_cons, Bool.and_eq_true, decide_eq_true_eq] at h
      exact .cons (.plain h.1.1 h.1.2.1 h.1.2.2) (ih h.2)
  have hzero : IsHex '0' 0 := ⟨by decide, .inl rfl⟩
  have hsix : IsHex '6' 6 := ⟨by decide, .inl rfl⟩
  have hfive : IsHex '5' 5 := ⟨by decide, .inl rfl⟩
  have he : Hex4 'e'.toNat _ := .mk hzero hzero hsix hfive
  have hevents : Quotes "events" _ := .mk (.cons (.unit he) (hplain "vents".toList (by decide)))
  -- The first member is of no interest, and its value has a value inside.
  have hnumber := Padded.mk hnone (.number ⟨true, .more 0 [], some ⟨5, []⟩, none⟩) hnone
  have hempty := @Padded.mk [' '] [] _ _ (by decide) (.noMembers hnone) hnone
  have hlist := @Padded.mk [' '] [] _ _ (by decide) (.items (.more hnumber (.last hempty))) hnone
  have hother :=
    @WritesMember.mk [' '] [] _ _ "a" _ (by decide) (.mk (hplain ['a'] (by decide))) hnone hlist
  have hitem := Padded.mk hnone (.string (@Quotes.mk "x" _ (hplain ['x'] (by decide)))) hnone
  have hitems := Padded.mk hnone (.items (.last hitem)) hnone
  have hmember := @WritesMember.mk ['\t'] [] _ _ _ _ (by decide) hevents hnone hitems
  have hnull := WritesMember.mk hnone hevents hnone (.mk hnone .null hnone)
  have hobject := Padded.mk hnone (.members (.more hother (.last hmember))) hnone
  have hobject' := Padded.mk hnone (.members (.last hnull)) hnone
  exact ⟨(ofJson_object _ _ hobject).2.1 ["x"] rfl,
    (ofJson_object _ _ hobject').2.2 (.inr ⟨.null, rfl, by simp⟩)⟩

end UiTree.Options
