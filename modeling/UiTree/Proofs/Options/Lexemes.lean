import UiTree.Options.Reader
import UiTree.Proofs.Options.Json
set_option autoImplicit false

/-!
Strings, numbers and words, read character by character. Every text that the grammar gives a value
of these kinds is taken to its end. A number has no end of its own: it is over when a character
comes that may follow a value.
-/

namespace UiTree.Options

namespace StringReader

/-- The characters are taken one by one, and the string is still open after the last. -/
def Takes : StringReader → List Char → StringReader → Prop
  | s, [], s' => s = s'
  | s, c :: cs, s' => ∃ s₁, s.step c = .ok (.more s₁) ∧ s₁.Takes cs s'

theorem Takes.append {s s₁ s₂ : StringReader} {cs ds : List Char} (h : s.Takes cs s₁)
    (h' : s₁.Takes ds s₂) : s.Takes (cs ++ ds) s₂ := by
  induction cs generalizing s with
  | nil =>
    cases h
    exact h'
  | cons c cs ih =>
    obtain ⟨t, hc, hcs⟩ := h
    exact ⟨t, hc, ih hcs⟩

theorem step_quote (p : Bool) (text : List Char) :
    step ⟨p, text, .plain⟩ '"' = .ok (.over (String.ofList text.reverse)) := rfl

theorem hexDigit?_of_isHex {x : Char} {d : Nat} (h : IsHex x d) : hexDigit? x = some d ∧
    x.utf8Size = 1 := by
  have hlow : ∀ d < 16, hexDigit? (lowHex d) = some d ∧ (lowHex d).utf8Size = 1 := by decide
  have hup : ∀ d < 16, hexDigit? (lowHex d).toUpper = some d ∧ (lowHex d).toUpper.utf8Size = 1 := by
    decide
  obtain ⟨hd, rfl | rfl⟩ := h
  · exact hlow d hd
  · exact hup d hd

theorem takes_hex4 {n : Nat} {digits text : List Char} {p : Bool} {high : Option Nat}
    {s' : StringReader} (h : Hex4 n digits) (hunit : ∀ part, unit ⟨p, text, part⟩ high n = .ok s') :
    Takes ⟨p, text, .hex high 0 (some 0)⟩ digits s' := by
  obtain ⟨hw, hx, hy, hz⟩ := h
  rename_i w x y z a b c d
  obtain ⟨hwd, hws⟩ := hexDigit?_of_isHex hw
  obtain ⟨hxd, hxs⟩ := hexDigit?_of_isHex hx
  obtain ⟨hyd, hys⟩ := hexDigit?_of_isHex hy
  obtain ⟨hzd, hzs⟩ := hexDigit?_of_isHex hz
  refine ⟨⟨p, text, .hex high 1 (some a)⟩, by simp [step, hwd, hws],
    ⟨p, text, .hex high 2 (some (a * 16 + b))⟩, by simp [step, hxd, hxs],
    ⟨p, text, .hex high 3 (some ((a * 16 + b) * 16 + c))⟩, by simp [step, hyd, hys], s', ?_, rfl⟩
  simp [step, hzd, hzs, hunit, Functor.map, Except.map]

theorem takes_short (p : Bool) (text : List Char) {x c : Char} (h : (x, c) ∈ shortEscapes) :
    Takes ⟨p, text, .plain⟩ ['\\', x] ⟨p, c :: text, .plain⟩ := by
  have hnamed : ∀ e ∈ shortEscapes, e.1 ≠ 'u' ∧ named? e.1 = some e.2 := by decide
  obtain ⟨hu, hx⟩ := hnamed _ h
  refine ⟨⟨p, text, .escape⟩, rfl, ⟨p, c :: text, .plain⟩, ?_, rfl⟩
  simp only [step, if_neg hu, hx, push]

theorem not_half (c : Char) : isLow c.toNat = false ∧ isHigh c.toNat = false := by
  have hvalid : c.toNat < 0xD800 ∨ 0xDFFF < c.toNat ∧ c.toNat < 0x110000 := c.valid
  simp only [isLow, isHigh, Bool.and_eq_false_iff, decide_eq_false_iff_not]
  omega

theorem takes_spellsChar (p : Bool) (text : List Char) {c : Char} {xs : List Char}
    (h : SpellsChar c xs) : ∃ text', Takes ⟨p, text, .plain⟩ xs ⟨p, text', .plain⟩ ∧
      (p = true → text' = c :: text) := by
  cases h with
  | plain hquote hslash hlow =>
    refine ⟨c :: text, ⟨⟨p, c :: text, .plain⟩, ?_, rfl⟩, fun _ => rfl⟩
    simp only [step, if_neg hquote, if_neg hslash, if_neg (Nat.not_lt.2 hlow), push]
  | short h => exact ⟨c :: text, takes_short p text h, fun _ => rfl⟩
  | unit h =>
    refine ⟨c :: text, ⟨⟨p, text, .escape⟩, rfl, _, rfl, takes_hex4 h fun part => ?_⟩, fun _ => rfl⟩
    obtain ⟨hlow, hhigh⟩ := not_half c
    cases p <;> simp [StringReader.unit, hlow, hhigh, push, Char.ofNat_toNat]
  | @halves _ high low digits _ hhigh hlow hc h h' =>
    have hjoined : joined high low = c := by
      have hnumber : (high - 0xD800) * 1024 + (low - 0xDC00) + 0x10000 = c.toNat := by omega
      rw [joined, hnumber, Char.ofNat_toNat]
    have hfirst : isLow high = false ∧ isHigh high = true := by
      simp only [isLow, isHigh, Bool.and_eq_false_iff, Bool.and_eq_true, decide_eq_false_iff_not,
        decide_eq_true_eq]
      omega
    have hsecond : isLow low = true := by
      simp only [isLow, Bool.and_eq_true, decide_eq_true_eq]
      omega
    cases p with
    | true =>
      -- The first half waits for the second.
      have hhalf : Takes ⟨true, text, .plain⟩ ('\\' :: 'u' :: digits)
          ⟨true, text, .halfDone high⟩ :=
        ⟨⟨true, text, .escape⟩, rfl, _, rfl,
          takes_hex4 h fun part => by simp [StringReader.unit, hfirst]⟩
      refine ⟨c :: text, hhalf.append ⟨_, rfl, _, rfl, takes_hex4 h' fun part => ?_⟩, fun _ => rfl⟩
      simp [StringReader.unit, hsecond, hjoined, push]
    | false =>
      have hhalf : Takes ⟨false, text, .plain⟩ ('\\' :: 'u' :: digits) ⟨false,
          Char.ofNat high :: text, .plain⟩ :=
        ⟨⟨false, text, .escape⟩, rfl, _, rfl, takes_hex4 h fun part => rfl⟩
      exact ⟨Char.ofNat low :: Char.ofNat high :: text,
        hhalf.append ⟨⟨false, _, .escape⟩, rfl, _, rfl, takes_hex4 h' fun part => rfl⟩, by simp⟩

theorem takes_spells (p : Bool) (text : List Char) {cs body : List Char} (h : Spells cs body) :
    ∃ text', Takes ⟨p, text, .plain⟩ body ⟨p, text', .plain⟩ ∧
      (p = true → text' = cs.reverse ++ text) := by
  induction h generalizing text with
  | nil => exact ⟨text, rfl, fun _ => rfl⟩
  | @cons c cs _ _ hc _ ih =>
    obtain ⟨text₁, hfirst, heq⟩ := takes_spellsChar p text hc
    obtain ⟨text₂, hrest, heq'⟩ := ih text₁
    refine ⟨text₂, hfirst.append hrest, fun hp => ?_⟩
    rw [heq' hp, heq hp]
    simp

end StringReader

def NumberPart.afterDigit : NumberPart → NumberPart
  | .point | .fraction => .fraction
  | .mark | .markSign | .exponent => .exponent
  | _ => .whole

namespace NumberReader

theorem digit?_digitChar : ∀ d : Fin 10, digit? (Nat.digitChar d.1) = some d.1 := by decide

theorem step_digit (n : NumberReader) (d : Fin 10) (hsign : n.part ≠ .sign)
    (hzero : n.part ≠ .zero) : ∃ n', n.step (Nat.digitChar d.1) = .ok (some n') ∧
      n'.part = n.part.afterDigit := by
  cases hpart : n.part with
  | sign => exact absurd hpart hsign
  | zero => exact absurd hpart hzero
  | whole =>
    refine ⟨n.wholeDigit d, by simp only [step, hpart, digit?_digitChar], ?_⟩
    rw [wholeDigit]
    split <;> rfl
  | point | fraction =>
    refine ⟨n.fractionDigit d, by simp only [step, hpart, digit?_digitChar], ?_⟩
    rw [fractionDigit]
    split <;> rfl
  | mark | markSign | exponent =>
    exact ⟨n.exponentDigit d, by simp only [step, hpart, digit?_digitChar], rfl⟩

end NumberReader

namespace Lexeme

/-- The text is what is still to come of the lexeme. A number has no end of its own. -/
inductive Reads : Lexeme → List Char → Prop where
  | letter {x y : Char} {rest cs : List Char} (h : Reads (.word (y :: rest)) cs) :
      Reads (.word (x :: y :: rest)) (x :: cs)
  | lastLetter (x : Char) : Reads (.word [x]) [x]
  | digit {n n' : NumberReader} {c : Char} {cs : List Char} (hc : n.step c = .ok (some n'))
      (h : Reads (.number n') cs) : Reads (.number n) (c :: cs)
  | complete {n : NumberReader} (h : n.complete = true) : Reads (.number n) []
  | char {s s' : StringReader} {c : Char} {cs : List Char} (hc : s.step c = .ok (.more s'))
      (h : Reads (.text s') cs) : Reads (.text s) (c :: cs)
  | quote (p : Bool) (text : List Char) : Reads (.text ⟨p, text, .plain⟩) ['"']

theorem reads_text {s : StringReader} {p : Bool} {body text : List Char}
    (h : s.Takes body ⟨p, text, .plain⟩) : Reads (.text s) (body ++ ['"']) := by
  induction body generalizing s with
  | nil =>
    cases h
    exact .quote p text
  | cons c body ih =>
    obtain ⟨s₁, hc, hbody⟩ := h
    exact .char hc (ih hbody)

/-- Digits do not leave the part of the number that they stand in. -/
theorem reads_digitChars {part : NumberPart} (hpart : part.afterDigit = part) {rest : List Char}
    (hrest : ∀ n : NumberReader, n.part = part → Reads (.number n) rest) (ds : List (Fin 10))
    {n : NumberReader}
    (hn : n.part = part) : Reads (.number n) (digitChars ds ++ rest) := by
  induction ds generalizing n with
  | nil => exact hrest n hn
  | cons d ds ih =>
    subst hn
    have hsign : n.part ≠ .sign := fun h => by simp [h, NumberPart.afterDigit] at hpart
    have hzero : n.part ≠ .zero := fun h => by simp [h, NumberPart.afterDigit] at hpart
    obtain ⟨n', hstep, hn'⟩ := n.step_digit d hsign hzero
    exact .digit hstep (ih (hn'.trans hpart))

theorem reads_digits (d : Digits) {rest : List Char} {n : NumberReader} (hsign : n.part ≠ .sign)
    (hzero : n.part ≠ .zero) (hrest : ∀ n' : NumberReader, n'.part = n.part.afterDigit →
      Reads (.number n') rest) :
    Reads (.number n) (d.chars ++ rest) := by
  have hstays : n.part.afterDigit.afterDigit = n.part.afterDigit := by cases n.part <;> rfl
  obtain ⟨n', hstep, hn'⟩ := n.step_digit d.first hsign hzero
  exact .digit hstep (reads_digitChars hstays hrest d.rest hn')

theorem reads_exponent (e : Option Exponent) {n : NumberReader}
    (hn : n.part = .zero ∨ n.part = .whole ∨ n.part = .fraction) :
    Reads (.number n) (e.elim [] Exponent.chars) := by
  cases e with
  | none =>
    refine .complete ?_
    rcases hn with hn | hn | hn <;> simp [NumberReader.complete, hn]
  | some e =>
    have hmark : n.step (if e.capital then 'E' else 'e') = .ok (some { n with part := .mark }) := by
      have hdigit : digit? 'e' = none ∧ digit? 'E' = none := by decide
      rcases hn with hn | hn | hn <;> cases e.capital <;> simp [NumberReader.step, hn, hdigit]
    have hdigits : ∀ n' : NumberReader, n'.part = .mark ∨ n'.part = .markSign →
        Reads (.number n') e.digits.chars := by
      intro n' hn'
      have hread : Reads (.number n') (e.digits.chars ++ []) := by
        refine reads_digits e.digits ?_ ?_ fun n'' hn'' => .complete ?_
        all_goals rcases hn' with hn' | hn' <;> simp_all [NumberReader.complete,
          NumberPart.afterDigit]
      rwa [List.append_nil] at hread
    refine .digit hmark ?_
    cases hsign : e.sign with
    | none => exact hdigits _ (.inl rfl)
    | some minus =>
      have hstep : NumberReader.step { n with part := .mark } (if minus then '-' else '+') =
          .ok (some { n with part := .markSign, shrinking := n.shrinking || minus }) := by
        have hdigit : digit? '+' = none ∧ digit? '-' = none := by decide
        cases minus <;> simp [NumberReader.step, hdigit]
      exact .digit hstep (hdigits _ (.inr rfl))

theorem reads_fraction (f : Option Digits) (e : Option Exponent) {n : NumberReader}
    (hn : n.part = .zero ∨ n.part = .whole) :
    Reads (.number n) ((f.elim [] fun d => '.' :: d.chars) ++ e.elim [] Exponent.chars) := by
  cases f with
  | none => exact reads_exponent e (hn.imp_right .inl)
  | some d =>
    have hpoint : n.step '.' = .ok (some { n with part := .point, full := false }) := by
      have hdigit : digit? '.' = none := by decide
      rcases hn with hn | hn <;> simp [NumberReader.step, hn, hdigit]
    exact .digit hpoint (reads_digits d (by simp) (by simp) fun n' hn' => reads_exponent e
      (.inr (.inr hn')))

theorem reads_whole (w : Whole) {rest : List Char} {n : NumberReader} (hn : n.part = .sign)
    (hrest : ∀ n' : NumberReader, n'.part = .zero ∨ n'.part = .whole → Reads (.number n') rest) :
    Reads (.number n) (w.chars ++ rest) := by
  have hfirst : ∀ d : Fin 10, n.step (Nat.digitChar d.1) = .ok (some (n.firstDigit d)) :=
    fun d => by
    simp only [NumberReader.step, hn, NumberReader.digit?_digitChar]
  cases w with
  | zero => exact .digit (hfirst 0) (hrest _ (.inl rfl))
  | more less ds =>
    have hpart : (n.firstDigit (less.1 + 1)).part = .whole := by
      rw [NumberReader.firstDigit, if_neg (Nat.succ_ne_zero _), NumberReader.wholeDigit]
      split <;> rfl
    exact .digit (hfirst ⟨less.1 + 1, by omega⟩)
      (reads_digitChars rfl (fun n' hn' => hrest n' (.inr hn')) ds hpart)

def Starts (p : Bool) (cs : List Char) : Prop := ∃ c tail l, cs = c :: tail ∧ start? p c = some l ∧
    Reads l tail

theorem starts_word (p : Bool) {c x : Char} {rest : List Char}
    (hc : start? p c = some (.word (x :: rest))) : Starts p (c :: x :: rest) := by
  refine ⟨c, x :: rest, _, rfl, hc, ?_⟩
  clear hc
  induction rest generalizing x with
  | nil => exact .lastLetter x
  | cons y rest ih => exact .letter ih

theorem starts_string (p : Bool) {s : String} {cs : List Char} (h : Quotes s cs) : Starts p cs := by
  obtain ⟨h⟩ := h
  obtain ⟨text, htakes, -⟩ := StringReader.takes_spells p [] h
  refine ⟨'"', _, .text (.opened p), rfl, rfl, reads_text htakes⟩

theorem exists_chars_of_whole (w : Whole) : ∃ (d : Fin 10) (tail : List Char),
    w.chars = Nat.digitChar d.1 :: tail := by
  cases w with
  | zero => exact ⟨0, [], rfl⟩
  | more less rest => exact ⟨⟨less.1 + 1, by omega⟩, _, rfl⟩

theorem start?_digitChar : ∀ (p : Bool) (d : Fin 10),
    start? p (Nat.digitChar d.1) = some (.number ((NumberReader.blank .sign).firstDigit d.1)) := by
  decide

theorem starts_number (p : Bool) (n : Numeral) : Starts p n.chars := by
  have hread : Reads (.number (.blank .sign)) (n.whole.chars ++ _) :=
    reads_whole n.whole rfl fun n' hn' => reads_fraction n.fraction n.exponent hn'
  rw [Numeral.chars]
  cases n.negative with
  | true => exact ⟨'-', _, _, rfl, rfl, hread⟩
  | false =>
    obtain ⟨d, tail, hw⟩ := exists_chars_of_whole n.whole
    rw [hw] at hread
    cases hread with
    | digit hc h =>
      have hfirst : (NumberReader.blank .sign).step (Nat.digitChar d.1) =
          .ok (some ((NumberReader.blank .sign).firstDigit d.1)) := by
        simp only [NumberReader.step, NumberReader.blank, NumberReader.digit?_digitChar]
      rw [hfirst] at hc
      cases hc
      rw [hw]
      exact ⟨Nat.digitChar d.1, _, _, rfl, start?_digitChar p d, h⟩

theorem of_start? {p : Bool} {c : Char} {l : Lexeme} (h : start? p c = some l) :
    isBlank c = false ∧ c ≠ '[' ∧ c ≠ ']' ∧ c ≠ '\x7b' := by
  have hnone : [' ', '\t', '\n', '\r', '[', ']', '\x7b'].all (fun c => (start? p c).isNone) =
      true := by
    cases p <;> decide
  have hnot : c ∉ [' ', '\t', '\n', '\r', '[', ']', '\x7b'] := by
    intro hc
    have hend := List.all_eq_true.1 hnone c hc
    rw [h] at hend
    cases hend
  simp_all [isBlank]

end Lexeme

theorem Writes.starts {v : Json} {cs : List Char} (h : Writes v cs) (p : Bool) :
    (∃ vs body, v = .list vs ∧ cs = '[' :: body) ∨
    (∃ ms body, v = .object ms ∧ cs = '\x7b' :: body) ∨
      Lexeme.Starts p cs := by
  cases h with
  | null => exact .inr (.inr (Lexeme.starts_word p rfl))
  | bool b => cases b <;> exact .inr (.inr (Lexeme.starts_word p rfl))
  | number n => exact .inr (.inr (Lexeme.starts_number p n))
  | string hq => exact .inr (.inr (Lexeme.starts_string p hq))
  | noItems | items => exact .inl ⟨_, _, rfl, rfl⟩
  | noMembers | members => exact .inr (.inl ⟨_, _, rfl, rfl⟩)

theorem Writes.string_of_quote {v : Json} {tail : List Char} (h : Writes v ('"' :: tail)) : ∃ s,
    v = .string s := by
  generalize hcs : '"' :: tail = cs at h
  cases h with
  | string => exact ⟨_, rfl⟩
  | number n =>
    obtain ⟨d, more, hw⟩ := Lexeme.exists_chars_of_whole n.whole
    have hdigit : ∀ d : Fin 10, Nat.digitChar d.1 ≠ '"' := by decide
    rw [Numeral.chars, hw] at hcs
    cases hneg : n.negative with
    | true => simp [hneg] at hcs
    | false =>
      simp only [hneg, Bool.false_eq_true, if_false, List.nil_append, List.cons_append,
        List.cons.injEq] at hcs
      exact absurd hcs.1.symm (hdigit d)
  | bool b => cases b <;> simp at hcs
  | _ => simp at hcs

theorem Writes.head {v : Json} {cs : List Char} (h : Writes v cs) :
    ∃ c tail, cs = c :: tail ∧ isBlank c = false ∧ c ≠ ']' := by
  rcases h.starts true with ⟨_, body, -, rfl⟩ | ⟨_, body, -, rfl⟩ | ⟨c, tail, l, rfl, hl, -⟩
  · exact ⟨'[', body, rfl, rfl, by decide⟩
  · exact ⟨'\x7b', body, rfl, rfl, by decide⟩
  · obtain ⟨hblank, -, hend, -⟩ := Lexeme.of_start? hl
    exact ⟨c, tail, rfl, hblank, hend⟩

def followers : List Char := [' ', '\t', '\n', '\r', ',', ']', '\x7d']

def Follows (rest : List Char) : Prop := ∃ c tail, rest = c :: tail ∧ c ∈ followers

theorem Follows.blank {b rest : List Char} (hb : Blank b) (h : Follows rest) :
    Follows (b ++ rest) := by
  cases b with
  | nil => exact h
  | cons c b =>
    have hc : c ∈ [' ', '\t', '\n', '\r'] := hb (.head b)
    exact ⟨c, b ++ rest, rfl, List.mem_append_left [',', ']', '\x7d'] hc⟩

theorem NumberReader.step_of_complete {n : NumberReader} (hn : n.complete = true) {c : Char}
    (hc : c ∈ followers) : n.step c = .ok none := by
  have hends : followers.all (fun c => digit? c = none ∧ c ≠ '.' ∧ c ≠ 'e' ∧ c ≠ 'E') = true := by
    decide
  obtain ⟨hdigit, hpoint, hlow, hcapital⟩ := of_decide_eq_true (List.all_eq_true.1 hends c hc)
  rw [NumberReader.complete] at hn
  split at hn
  all_goals simp_all [NumberReader.step]

end UiTree.Options
