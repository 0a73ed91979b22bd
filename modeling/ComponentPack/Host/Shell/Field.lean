import ComponentPack.Host.Shell.Basic
import ComponentPack.Host.Shell.Expression
import ComponentPack.Host.Shell.Pattern

/-!
What words stand for: the values of their pieces, and the fields into which values are divided.
-/

namespace ComponentPack.Host

open Script

inductive Glyph where
  | solid (letter : Letter)
  /-- A character of a value that may be divided: separators end fields. -/
  | loose (c : Char)
  /-- The beginning of a value that may be divided, or of arguments in quotes, which keep a last
  field that is empty. -/
  | seam (ofArguments : Bool)
  /-- Comes between arguments that may be divided, and counts as a blank. -/
  | gap
  /-- Makes a field even of nothing. -/
  | mark
  | border
deriving DecidableEq, Repr

structure Division where
  fields : List (List Letter) := []
  /-- The letters of the field that has begun, in reverse. -/
  field? : Option (List Letter) := none
  /-- A blank has ended a field, and only blanks have been passed since. -/
  isBlank : Bool := false
  isKept : Bool := false
  isAfterKept : Bool := false

namespace Division

def add (division : Division) (letter : Letter) : Division :=
  { division with field? := some (letter :: division.field?.getD []), isBlank := false }

def ended (division : Division) : Division :=
  { division with
    fields := (division.field?.getD []).reverse :: division.fields
    field? := none }

/-- Passes over a separator. Blanks before a field do not count; after a field, one separator that
is no blank goes with the blanks before it. After arguments in quotes, blanks are like any other
separator. -/
def separated (division : Division) (isBlank : Bool) : Division :=
  if division.isBlank then { division with isBlank := isBlank }
  else
    let isBlank := isBlank && !division.isAfterKept
    if division.field?.isNone ∧ isBlank then division
    else { division.ended with isBlank := isBlank }

def step (separators : Text) (division : Division) : Glyph → Division
  | .solid letter => division.add letter
  | .loose c =>
    if c ∈ separators then division.separated (c = ' ' ∨ c = '\t' ∨ c = '\n')
    else division.add ⟨c, false⟩
  | .seam ofArguments =>
    { division with isBlank := false, isKept := ofArguments, isAfterKept := division.isKept }
  | .gap => division.separated true
  | .mark => { division with field? := some (division.field?.getD []), isBlank := false }
  | .border => { division.ended with isBlank := false }

end Division

namespace Glyph

def ofValue (quoted : Bool) (text : Text) : List Glyph :=
  if quoted then text.map fun c => .solid ⟨c, true⟩ else .seam false :: text.map .loose

/-- What an operand of a parameter contributes: without quotes its characters count as a value.
`isInside` tells whether the one before does. -/
def loosened (isInside : Bool) : List Glyph → List Glyph
  | .solid ⟨c, false⟩ :: rest =>
    if isInside then .loose c :: loosened true rest
    else .seam false :: .loose c :: loosened true rest
  | glyph :: rest => glyph :: loosened false rest
  | [] => []

def letters (glyphs : List Glyph) : List Letter :=
  glyphs.filterMap fun
    | .solid letter => some letter
    | .loose c => some ⟨c, false⟩
    | .border | .gap => some ⟨' ', true⟩
    | .mark | .seam _ => none

def text (glyphs : List Glyph) : Text := (letters glyphs).map (·.char)

def fields (separators : Text) (glyphs : List Glyph) : List (List Letter) :=
  let division := glyphs.foldl (Division.step separators) {}
  let division :=
    if division.field?.isSome ∨ division.isKept then division.ended else division
  division.fields.reverse

end Glyph

abbrev Substitution := Shell → Command → Shell × Text

abbrev Expansion := (isDivided : Bool) → Shell → Word → Shell × List Glyph

namespace Shell

def requiredValue (shell : Shell) (name : Text) : Shell × Text :=
  match shell.value? name with
  | some value => (shell, value)
  | none =>
    if shell.hasOption 'u' then (shell.abort (name ++ ": parameter not set"), [])
    else (shell, [])

def areFields (isDivided : Bool) (name : Text) (quoted : Bool) : Bool :=
  isDivided && (name = ['@'] || name = ['*'] && !quoted)

def argumentGlyphs (arguments : List Text) (quoted : Bool) : List Glyph :=
  if !quoted then
    .seam false :: List.intercalate [.gap] (arguments.map fun text => text.map Glyph.loose)
  else if arguments.isEmpty then []
  else .seam true :: List.intercalate [.border] (arguments.map (Glyph.ofValue true))

def plainGlyphs (isDivided : Bool) (shell : Shell) (name : Text) (quoted : Bool) :
    Shell × List Glyph :=
  if areFields isDivided name quoted then (shell, argumentGlyphs shell.arguments quoted)
  else
    let (shell, value) := shell.requiredValue name
    (shell, Glyph.ofValue quoted value)

/-- What is left of arguments without what a pattern accepts: a beginning is cut off the first one,
and an end with all that comes after it. -/
def cutArguments (pattern : Pattern) (fromEnd longest : Bool) (arguments : List Text) :
    List Text :=
  if !fromEnd then
    match arguments with
    | [] => []
    | first :: rest => pattern.cutStart longest first :: rest
  else
    let places := List.range arguments.length
    let places := if longest then places else places.reverse
    let isCut (text : Text) : Bool :=
      pattern.accepts [] || pattern.cutEnd longest text ≠ text
    match places.find? fun place => (arguments[place]?).any isCut with
    | none => arguments
    | some place =>
      arguments.take place ++ (arguments[place]?).toList.map (pattern.cutEnd longest)

def compute (shell : Shell) (text : Text) : Shell × Text :=
  match (Expression.read text).bind (·.evaluate shell.values.entries) with
  | .error fault => (shell.abort (fault.message text), [])
  | .ok (value, values) =>
    let added := values.take (values.length - shell.values.size)
    let shell := added.reverse.foldl (fun shell (name, value) =>
      if shell.stop.isSome then shell else shell.assign name value) shell
    (shell, Text.ofInt value)

def replacedGlyphs (expand : Expansion) (isDivided : Bool) (shell : Shell) (name : Text)
    (mark : Char) (emptyToo : Bool) (operand : Word) (quoted : Bool) : Shell × List Glyph :=
  let isMissing := match shell.value? name with
    | none => true
    | some value => emptyToo && value.isEmpty
  match mark, isMissing with
  | '+', true => (shell, Glyph.ofValue quoted [])
  | '+', false | '-', true =>
    let (shell, glyphs) := expand isDivided shell operand
    (shell, if quoted then glyphs else Glyph.loosened false glyphs)
  | '=', true =>
    let (shell, glyphs) := expand false shell operand
    let value := Glyph.text glyphs
    if shell.stop.isSome then (shell, [])
    else if isName name then (shell.assign name value, Glyph.ofValue quoted value)
    else (shell.abort (name ++ ": bad variable name"), [])
  | '?', true =>
    let (shell, glyphs) := expand false shell operand
    let reason := Glyph.text glyphs
    let reason :=
      if !reason.isEmpty then reason
      else "parameter not set".toList ++ if emptyToo then " or null".toList else []
    if shell.stop.isSome then (shell, []) else (shell.abort (name ++ ": " ++ reason), [])
  | _, _ => shell.plainGlyphs isDivided name quoted

def pieceGlyphs (substitute : Substitution) (expand : Expansion) (isDivided : Bool)
    (shell : Shell) : Piece → Shell × List Glyph
  | .char c quoted => (shell, [.solid ⟨c, quoted⟩])
  | .quotes => (shell, [.mark])
  | .output script quoted =>
    let (shell, text) := substitute shell script
    (shell, Glyph.ofValue quoted text)
  | .number expression quoted =>
    let (shell, glyphs) := expand false shell expression
    if shell.stop.isSome then (shell, [])
    else
      let (shell, text) := shell.compute (Glyph.text glyphs)
      (shell, Glyph.ofValue quoted text)
  | .parameter name rule quoted =>
    match rule with
    | .value => shell.plainGlyphs isDivided name quoted
    | .size =>
      let (shell, value) := shell.requiredValue name
      (shell, Glyph.ofValue quoted (Text.ofNat value.length))
    | .replaced mark emptyToo operand =>
      replacedGlyphs expand isDivided shell name mark emptyToo operand quoted
    | .cut fromEnd longest pattern =>
      let (shell, value) := shell.requiredValue name
      if shell.stop.isSome then (shell, [])
      else
        let (shell, glyphs) := expand false shell pattern
        let pattern := Pattern.read (Glyph.letters glyphs)
        if areFields isDivided name quoted then
          let arguments := cutArguments pattern fromEnd longest shell.arguments
          (shell, argumentGlyphs arguments quoted)
        else
          let value :=
            if fromEnd then pattern.cutEnd longest value else pattern.cutStart longest value
          (shell, Glyph.ofValue quoted value)
    | .unknown => (shell.abort "Bad substitution", [])

/-- Quotes around all arguments make no field where there are none. -/
def withoutArgumentQuotes : Word → Word
  | .quotes :: .parameter ['@'] .value true :: .quotes :: rest =>
    .parameter ['@'] .value true :: withoutArgumentQuotes rest
  | piece :: rest => piece :: withoutArgumentQuotes rest
  | [] => []

def endsTilde (afterColons : Bool) : Word → Bool
  | [] => true
  | .char c false :: _ => c = '/' || afterColons && c = ':'
  | _ => false

/-- Puts the home directory for a tilde at the beginning of a word, or also after each colon. -/
def withHome (home : Text) (afterColons : Bool) : (isStart : Bool) → Word → Word
  | true, .char '~' false :: rest =>
    if endsTilde afterColons rest then Word.ofText home ++ withHome home afterColons false rest
    else .char '~' false :: withHome home afterColons false rest
  | _, .char c false :: rest =>
    .char c false :: withHome home afterColons (afterColons && c = ':') rest
  | _, piece :: rest => piece :: withHome home afterColons false rest
  | _, [] => []

def atHome (shell : Shell) (afterColons : Bool) (word : Word) : Word :=
  match shell.values.get? "HOME" with
  | some home => withHome home afterColons true word
  | none => word

/-- The value of a word whose pieces hold others at most so deeply. -/
def glyphs (substitute : Substitution) : Nat → Expansion
  | 0, _, shell, _ => ({ shell with stop := some .timeout }, [])
  | fuel + 1, isDivided, shell, word =>
    let expand : Expansion := fun isDivided shell word =>
      glyphs substitute fuel isDivided shell (shell.atHome false word)
    (withoutArgumentQuotes word).foldl (fun (shell, before) piece =>
      if shell.stop.isSome then (shell, before)
      else
        let (shell, more) := shell.pieceGlyphs substitute expand isDivided piece
        (shell, before ++ more)) (shell, [])

def fieldsOf (substitute : Substitution) (fuel : Nat) (shell : Shell) (word : Word) :
    Shell × List Text :=
  let (shell, glyphs) := shell.glyphs substitute fuel true (shell.atHome false word)
  let fields := (Glyph.fields shell.separators glyphs).flatMap fun letters =>
    if shell.hasOption 'f' then [letters.map (·.char)] else Pattern.paths shell.disk letters
  (shell, fields)

end Shell

end ComponentPack.Host
