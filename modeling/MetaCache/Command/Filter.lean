import MetaCache.Command.Event
import MetaCache.Command.Pattern
import MetaCache.Text.Alphanumeric
import MetaCache.Text.Blank

/-!
# Which events are logged

A filter is a list of directives with commas between them. A directive is a level for all events, or
a target with or without a level; a target stands for all targets that begin with it. Levels are
names in any case, or numbers up to five. In brackets and braces behind the target a directive may
name fields that an event must have.

Of the directives for an event only the most specific one counts: the one with the longest target,
among those the one with the most fields, and of several for the same events the last one.

A directive may also name a span of time in its brackets, or values of fields. This command has no
spans, so such a directive is for no event.
-/

namespace MetaCache.Command

open MetaCache.Text

inductive Directive
  /-- Events from a target, or all of them, that have some fields, down to a depth. -/
  | events (target : Option String) (fields : List String) (depth : Nat)
  | spans
  deriving DecidableEq, Repr

namespace Directive

/-! ## Levels -/

/-- Levels by their depth, beginning with none at all. -/
def levelNames : List String := ["off", "error", "warn", "info", "debug", "trace"]

/-- The depth of the last level. -/
def deepest : Nat := 5

/-- A number with or without a plus sign. -/
def number? (cs : List Char) : Option Nat :=
  let digits :=
    match cs with
    | '+' :: rest => rest
    | cs => cs
  if digits.isEmpty || !digits.all Char.isDigit then none
  else some (digits.foldl (fun n c => n * 10 + (c.toNat - 48)) 0)

/-- The depth that a text names. -/
def depth? (cs : List Char) : Option Nat :=
  match number? cs with
  | some n => if n ≤ deepest then some n else none
  | none => levelNames.findIdx? (·.toList = cs.map Char.toLower)

/-- The depth behind an equals sign; no name means all levels. -/
def readDepth (cs : List Char) : Option Nat := if cs.isEmpty then some deepest else depth? cs

/-! ## Fields -/

/-- Whether a text is a number with a sign, which is a value although it is no pattern. -/
def isSigned (cs : List Char) : Bool :=
  match cs with
  | '+' :: digits => !digits.isEmpty && digits.all fun c => c.isDigit || c = '.'
  | _ => false

/-- A field as a directive names it: by its name, or with a value too. -/
inductive FieldTest
  | named (name : String)
  | valued
  deriving DecidableEq, Repr

/-- Reads what a directive says about a field: a name and perhaps, behind an equals sign, a value.
What follows a second equals sign does not count. -/
def FieldTest.read (cs : List Char) : Option FieldTest :=
  if cs.isEmpty then none
  else
    match cs.dropWhile (· ≠ '=') with
    | [] => some (.named (String.ofList cs))
    | _ :: rest =>
      let value := rest.takeWhile (· ≠ '=')
      if isSigned value || Pattern.isGood value then some .valued else none

/-! ## Reading -/

/-- How far a directive is read. A part at hand has the offset at which it began. -/
inductive Stage
  | start
  /-- A level or a target. -/
  | name (first : Nat)
  | span (first : Nat)
  | field (first : Nat)
  | behindField
  | behindBrackets
  | level (first : Nat)
  deriving DecidableEq, Repr

/-- What is known of a directive while it is read. -/
structure Draft where
  stage : Stage
  target : Option String
  fields : List String
  /-- Whether it is for spans only. -/
  isForSpans : Bool

namespace Draft

/-- Nothing is known yet. -/
def start : Draft := ⟨.start, none, [], false⟩

/-- The directive with what is known. -/
def directive (d : Draft) (depth : Nat) : Directive :=
  if d.isForSpans then .spans else .events d.target d.fields depth

/-- Adds what is said about a field. -/
def addField (d : Draft) : FieldTest → Draft
  | .named name => { d with fields := d.fields ++ [name] }
  | .valued => { d with isForSpans := true }

end Draft

/-- Whether a directive may begin with a character that is no bracket. -/
def isStart (c : Char) : Bool := isAlphanumeric c || c = '-' || c = ':' || c = '_'

/-- One more character, at an offset; `part` is the text between two offsets. -/
def step (part : Nat → Nat → Option (List Char)) (d : Draft) (offset : Nat) (c : Char) :
    Option Draft :=
  let next := offset + c.utf8Size
  match d.stage with
  | .start =>
    if c = '[' then some { d with stage := .span next }
    else if isStart c then some { d with stage := .name offset }
    else none
  | .name first =>
    if c = '=' ∨ c = '[' then do
      let target ← part first offset
      return { d with
        target := some (String.ofList target)
        stage := if c = '=' then .level next else .span next }
    else some d
  | .span first =>
    if c = ']' then do
      let _ ← part first offset
      return { d with isForSpans := true, stage := .behindBrackets }
    else if c = '{' then do
      let name ← part first offset
      return { d with isForSpans := !name.isEmpty, stage := .field next }
    else some d
  | .field first =>
    if c = '}' then do
      let test ← FieldTest.read (← part first offset)
      return { d.addField test with stage := .behindField }
    else some d
  | .behindField => if c = ']' then some { d with stage := .behindBrackets } else none
  | .behindBrackets => if c = '=' then some { d with stage := .level next } else none
  | .level _ => some d

/-- All characters, from an offset on. -/
def scan (part : Nat → Nat → Option (List Char)) : Draft → Nat → List Char → Option Draft
  | d, _, [] => some d
  | d, offset, c :: rest => do scan part (← step part d offset c) (offset + c.utf8Size) rest

/-- The directive of a draft that is whole; `rest` is the text from an offset on. -/
def finish (rest : Nat → Option (List Char)) (d : Draft) : Option Directive := do
  match d.stage with
  | .name first =>
    let name ← rest first
    match depth? name with
    | some depth => return .events none [] depth
    | none => return .events (some (String.ofList name)) [] deepest
  | .level first => return d.directive (← readDepth (← rest first))
  | .behindBrackets => return d.directive deepest
  | _ => none

/-- The characters of a text between two offsets in bytes. -/
def slice (text : List Char) (first last : Nat) : Option (List Char) :=
  (String.fromUTF8? ((String.ofList text).toUTF8.extract first last)).map String.toList

/-- Reads a directive. Offsets are counted from the first character that is not blank, but parts are
taken from the text as it is: blanks at the beginning shift all of them. -/
def read (text : List Char) : Option Directive := do
  let trimmed := ((text.dropWhile isBlank).reverse.dropWhile isBlank).reverse
  let d ← scan (slice text) .start 0 trimmed
  finish (fun first => slice text first (String.ofList text).utf8ByteSize) d

/-! ## Meaning -/

/-- Whether a directive is for an event. -/
def isFor (e : Event) : Directive → Bool
  | events target fields _ =>
    target.all (fun target => target.toList.isPrefixOf Event.target.toList)
      && fields.all (· ∈ e.fieldNames)
  | spans => false

/-- How specific a directive is: longer targets first, then more fields, and if these are the same,
later ones in order. -/
def specificity : Directive → (Nat × Nat) × (String × List String)
  | events target fields _ =>
    ((target.elim 0 (·.utf8ByteSize + 1), fields.length), (target.getD "", fields))
  | spans => ((0, 0), ("", []))

/-- Whether a directive gives way to another one. -/
def givesWayTo (d other : Directive) : Bool :=
  let (sizes, names) := d.specificity
  let (sizes', names') := other.specificity
  ((compare sizes.1 sizes'.1).then (compare sizes.2 sizes'.2)).then
    ((compare names.1 names'.1).then (compare names.2 names'.2)) |>.isLE

def depth : Directive → Nat
  | events _ _ depth => depth
  | spans => 0

end Directive

structure Filter where
  directives : List Directive
  deriving DecidableEq, Repr

namespace Filter

/-- Reads a filter. Nothing between two commas is no directive. -/
def read (text : String) : Option Filter :=
  ((text.splitOn ",").filter (· ≠ "")).mapM (fun part => Directive.read part.toList)
    |>.map Filter.mk

/-- All but details, from all parts of the command. -/
def standard : Filter := ⟨[.events (some "appmeta") [] Level.info.depth]⟩

/-- The filter that the environment asks for. One that cannot be read is as good as none. -/
def ofEnvironment (text : Option String) : Filter := (text.bind read).getD standard

/-- The directive that counts for an event. -/
def directiveFor (f : Filter) (e : Event) : Option Directive :=
  (f.directives.filter (·.isFor e)).foldl (fun best d =>
    match best with
    | some other => if other.givesWayTo d then some d else best
    | none => some d) none

/-- Whether an event is logged. -/
def admits (f : Filter) (e : Event) : Bool :=
  match f.directiveFor e with
  | some d => e.level.depth ≤ d.depth
  | none => false

end Filter

end MetaCache.Command
