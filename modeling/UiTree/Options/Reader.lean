import UiTree.Options
import UiTree.Options.Lexeme
set_option autoImplicit false

/-!
Options from JSON text, read one character at a time, so that the first problem met decides the
refusal. The member `events` is read as a list of strings; other members are skipped, to any depth.
A top-level list is taken as the fields in order.
-/

namespace UiTree.Options

inductive Bracket where
  | list
  | object
  deriving DecidableEq, Repr

def Bracket.closing : Bracket → Char
  | .list => ']'
  | .object => '\x7d'

/-- The place inside a skipped value, with the brackets around it, innermost first. -/
inductive Skip where
  | value (around : List Bracket)
  | lexeme (l : Lexeme) (around : List Bracket)
  | opened (b : Bracket) (around : List Bracket)
  | between (b : Bracket) (around : List Bracket)
  | key (around : List Bracket)
  | keyText (s : StringReader) (around : List Bracket)
  | colon (around : List Bracket)
  deriving DecidableEq, Repr

/-- `finished` says whether the value ended with the character or before it. -/
inductive SkipStep where
  | more (s : Skip)
  | finished (consumed : Bool)

namespace Skip

def after : List Bracket → SkipStep
  | [] => .finished true
  | b :: around => .more (.between b around)

def start (around : List Bracket) (c : Char) : Except Refusal SkipStep :=
  match Lexeme.start? false c with
  | some l => .ok (.more (.lexeme l around))
  | none =>
    if c = '[' then .ok (.more (.opened .list around))
    else if c = '\x7b' then .ok (.more (.opened .object around))
    else .error .malformed

def betweenStep (b : Bracket) (around : List Bracket) (c : Char) : Except Refusal SkipStep :=
  if isBlank c then .ok (.more (.between b around))
  else if c = ',' then
    match b with
    | .list => .ok (.more (.value (.list :: around)))
    | .object => .ok (.more (.key around))
  else if c = b.closing then .ok (after around)
  else .error .malformed

def keyStep (around : List Bracket) (c : Char) : Except Refusal SkipStep :=
  if c = '"' then .ok (.more (.keyText (.opened false) around)) else .error .malformed

def lexemeStep (l : Lexeme) (around : List Bracket) (c : Char) : Except Refusal SkipStep :=
  match l with
  | .word rest => do
    match ← wordStep rest c with
    | .more rest => pure (.more (.lexeme (.word rest) around))
    | .over _ => pure (after around)
  | .text s => do
    match ← s.step c with
    | .more s => pure (.more (.lexeme (.text s) around))
    | .over _ => pure (after around)
  | .number n => do
    match ← n.step c with
    | some n => pure (.more (.lexeme (.number n) around))
    | none => match around with
      | [] => pure (.finished false)
      | b :: around => betweenStep b around c

def step (s : Skip) (c : Char) : Except Refusal SkipStep :=
  match s with
  | .value around => if isBlank c then .ok (.more s) else start around c
  | .lexeme l around => lexemeStep l around c
  | .opened b around =>
    if isBlank c then .ok (.more s)
    else if c = b.closing then .ok (after around)
    else match b with
      | .list => start (.list :: around) c
      | .object => keyStep around c
  | .between b around => betweenStep b around c
  | .key around => if isBlank c then .ok (.more s) else keyStep around c
  | .keyText t around => do
    match ← t.step c with
    | .more t => pure (.more (.keyText t around))
    | .over _ => pure (.more (.colon around))
  | .colon around =>
    if isBlank c then .ok (.more s)
    else if c = ':' then .ok (.more (.value (.object :: around)))
    else .error .malformed

/-- The refusal if the text ends here. A number that lacks its digits is at fault itself. -/
def atEnd : Skip → Refusal
  | .lexeme (.number n) _ => if n.complete then .truncated else .malformed
  | _ => .truncated

end Skip

/-- Where a list of strings stands: as the member `events`, or as the first field of a list. -/
inductive Home where
  | member
  | field
  deriving DecidableEq, Repr

/-- The place in the document. `found` is the value of `events` if that member has been read. -/
inductive Reader where
  | start
  | opened
  | member (found : Option (List String))
  | key (found : Option (List String))
  | keyText (found : Option (List String)) (s : StringReader)
  | colon (found : Option (List String)) (known : Bool)
  | skipping (found : Option (List String)) (s : Skip)
  | events (home : Home)
  | opening (home : Home)
  | item (home : Home) (items : List String)
  | itemText (home : Home) (items : List String) (s : StringReader)
  | between (home : Home) (items : List String)
  | fields
  | fieldsEnd (items : List String)
  | mistyped (l : Lexeme)
  | over (o : Options)
  deriving DecidableEq, Repr

namespace Reader

/-- A value of another form than the one wanted. Brackets show that at once, a lexeme when it is
complete. -/
def other (c : Char) : Except Refusal Reader :=
  match Lexeme.start? true c with
  | some l => .ok (.mistyped l)
  | none => if c = '[' ∨ c = '\x7b' then .error .mistyped else .error .malformed

def mistypedNumber (n : NumberReader) : Refusal := if n.tooLarge then .malformed else .mistyped

def mistypedStep (l : Lexeme) (c : Char) : Except Refusal Reader :=
  match l with
  | .word rest => do
    match ← wordStep rest c with
    | .more rest => pure (.mistyped (.word rest))
    | .over _ => .error .mistyped
  | .text s => do
    match ← s.step c with
    | .more s => pure (.mistyped (.text s))
    | .over _ => .error .mistyped
  | .number n => do
    match ← n.step c with
    | some n => pure (.mistyped (.number n))
    | none => .error (mistypedNumber n)

def keyStart (found : Option (List String)) (c : Char) : Except Refusal Reader :=
  if c = '"' then .ok (.keyText found (.opened true)) else .error .malformed

def keyDone (found : Option (List String)) (key : String) : Except Refusal Reader :=
  if key = "events" then
    if found.isSome then .error .mistyped else .ok (.colon found true)
  else .ok (.colon found false)

def memberStep (found : Option (List String)) (c : Char) : Except Refusal Reader :=
  if isBlank c then .ok (.member found)
  else if c = ',' then .ok (.key found)
  else if c = '\x7d' then .ok (.over ⟨found.getD usual.events⟩)
  else .error .malformed

def itemStart (home : Home) (items : List String) (c : Char) : Except Refusal Reader :=
  if c = '"' then .ok (.itemText home items (.opened true)) else other c

def listDone (items : List String) : Home → Reader
  | .member => .member (some items)
  | .field => .fieldsEnd items

def step (r : Reader) (c : Char) : Except Refusal Reader :=
  match r with
  | .start =>
    if isBlank c then .ok r
    else if c = '\x7b' then .ok .opened
    else if c = '[' then .ok .fields
    else other c
  | .opened =>
    if isBlank c then .ok r
    else if c = '\x7d' then .ok (.over usual)
    else keyStart none c
  | .member found => memberStep found c
  | .key found => if isBlank c then .ok r else keyStart found c
  | .keyText found s => do
    match ← s.step c with
    | .more s => pure (.keyText found s)
    | .over name => keyDone found name
  | .colon found known =>
    if isBlank c then .ok r
    else if c = ':' then .ok (if known then .events .member else .skipping found (.value []))
    else .error .malformed
  | .skipping found s => do
    match ← s.step c with
    | .more s => pure (.skipping found s)
    | .finished true => pure (.member found)
    | .finished false => memberStep found c
  | .events home =>
    if isBlank c then .ok r
    else if c = '[' then .ok (.opening home)
    else other c
  | .opening home =>
    if isBlank c then .ok r
    else if c = ']' then .ok (listDone [] home)
    else itemStart home [] c
  | .item home items => if isBlank c then .ok r else itemStart home items c
  | .itemText home items s => do
    match ← s.step c with
    | .more s => pure (.itemText home items s)
    | .over text => pure (.between home (items ++ [text]))
  | .between home items =>
    if isBlank c then .ok r
    else if c = ',' then .ok (.item home items)
    else if c = ']' then .ok (listDone items home)
    else .error .malformed
  | .fields =>
    if isBlank c then .ok r
    else if c = ']' then .ok (.over usual)
    else if c = '[' then .ok (.opening .field)
    else other c
  | .fieldsEnd items =>
    if isBlank c then .ok r
    else if c = ']' then .ok (.over ⟨items⟩)
    else .error .malformed
  | .mistyped l => mistypedStep l c
  | .over _ => if isBlank c then .ok r else .error .malformed

def finish : Reader → Except Refusal Options
  | .over o => .ok o
  | .skipping _ s => .error s.atEnd
  | .mistyped (.number n) => .error (if n.complete then mistypedNumber n else .truncated)
  | _ => .error .truncated

def run (r : Reader) (text : List Char) : Except Refusal Reader := text.foldlM step r

theorem run_append (r : Reader) (first rest : List Char) :
    r.run (first ++ rest) = r.run first >>= (·.run rest) :=
  List.foldlM_append

end Reader

def readJson (text : List Char) : Except Refusal Options := do (← Reader.start.run text).finish

def ofJson (text : String) : Except Refusal Options := readJson text.toList

end UiTree.Options
