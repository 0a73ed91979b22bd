import ComponentPack.Stylesheet.Property.Box

/-!
Properties of what changes in time: transitions and animations.
-/

namespace ComponentPack.Stylesheet

open Grammar

namespace Property

namespace Motion

def curves : List (String × List Rat) :=
  [("ease", [1 / 4, 1 / 10, 1 / 4, 1]), ("ease-in", [42 / 100, 0, 1, 1]),
    ("ease-out", [0, 0, 58 / 100, 1]), ("ease-in-out", [42 / 100, 0, 58 / 100, 1])]

def curve : Grammar Text := do
  let (_, inside) ← called ["cubic-bezier"]
  match (Component.parts ',' inside).mapM (whole? number) with
  | some [x₁, y₁, x₂, y₂] =>
    let points := [x₁, y₁, x₂, y₂]
    match curves.find? fun (_, known) => known = points with
    | some (name, _) => return name.toList
    | none => return callText "cubic-bezier" (points.map Numeral.text)
  | _ => failure

def stepPlace : Grammar Text :=
  (do let _ ← oneOf ["start", "jump-start"]; return "start") <|>
    (do let _ ← oneOf ["end", "jump-end"]; return "end") <|>
    oneOf ["jump-none", "jump-both"]

/-- A course in steps, which are taken at the end of their time unless it is said otherwise. -/
def steps : Grammar Text := do
  let (_, inside) ← called ["steps"]
  let values := match Component.parts ',' inside with
    | [count] => some (whole? Measure.integer count, some "end".toList)
    | [count, place] => some (whole? Measure.integer count, whole? stepPlace place)
    | _ => none
  match values with
  | some (some count, some place) => return text count place
  | _ => failure
where
  text (count place : Text) : Text :=
    match String.ofList count, String.ofList place with
    | "1", "start" => "step-start"
    | "1", "end" => "step-end"
    | _, "end" => callText "steps" [count]
    | _, _ => callText "steps" [count, place]

def courseWords : List String :=
  ["linear", "ease", "ease-in", "ease-out", "ease-in-out", "step-start", "step-end"]

def course : Grammar Text := oneOf courseWords <|> curve <|> steps

def noTime : Text := "0s"

def propertyName : Grammar Text := do return Token.nameText (← Grammar.name)

/-- A change of a property: its time, its course and its delay, as far as they are not usual. -/
def transition : Grammar Text := do
  match ← anyOrder [Measure.time, course, Measure.time, propertyName] with
  | [none, none, none, none] => failure
  | [time?, course?, delay?, name?] =>
    let time := time?.getD noTime
    let delay := delay?.getD noTime
    return spaced (name?.getD "all".toList ::
      (if time = noTime ∧ delay = noTime then [] else [time]) ++
      (course?.filter (· ≠ "ease".toList)).toList ++ if delay = noTime then [] else [delay])
  | _ => failure

def reserved : List String :=
  ["none", "initial", "inherit", "unset", "default", "revert", "revert-layer"]

/-- The name of an animation. Quotes are needed only around a word that means something else. -/
def animationName : Grammar Text :=
  Grammar.word "none" <|>
    (do
      let name ← quoted
      let isReserved := reserved.any fun word => word.toList = Text.lower name
      if isReserved ∨ name.isEmpty then return Token.quotedText name
      return Token.nameText name) <|> do
    let name ← Grammar.name
    if reserved.any fun word => word.toList = Text.lower name then failure
    return Token.nameText name

def times : Grammar Text := Grammar.word "infinite" <|> Measure.number

def ways : List String := ["normal", "reverse", "alternate", "alternate-reverse"]

def fills : List String := ["none", "forwards", "backwards", "both"]

def plays : List String := ["running", "paused"]

def timeline : Grammar Text :=
  oneOf ["auto", "none"] <|> do
    let name ← Grammar.name
    if ['-', '-'].isPrefixOf name then return Token.nameText name else failure

/-- An animation. What is usual is written only if its name could be taken for it. -/
def animation : Grammar Text := do
  let taken ← anyOrder [Measure.time, course, Measure.time, times, oneOf ways,
    oneOf fills, oneOf plays, animationName, timeline]
  if taken.all Option.isNone then failure
  match taken with
  | [time?, course?, delay?, times?, way?, fill?, play?, name?, timeline?] =>
    let name := name?.getD "none"
    if name = "none" then return name
    let time := time?.getD noTime
    let delay := delay?.getD noTime
    let unlike (usual : String) (words : List String) (text? : Option Text) : List Text :=
      let text := text?.getD usual.toList
      if text ≠ usual.toList ∨ words.any (fun word => word.toList = Text.lower name) then [text]
      else []
    return spaced ((if time = noTime ∧ delay = noTime then [] else [time]) ++
      unlike "ease" courseWords course? ++ (if delay = noTime then [] else [delay]) ++
      unlike "1" ["infinite"] times? ++ unlike "normal" ways way? ++ unlike "none" fills fill? ++
      unlike "running" plays play? ++ name :: (timeline?.filter (· ≠ "auto".toList)).toList)
  | _ => failure

def grammars : List (String × Grammar Text) :=
  [("transition", transition), ("transition-property", propertyName),
    ("transition-duration", Measure.time), ("transition-delay", Measure.time),
    ("transition-timing-function", course), ("animation", animation),
    ("animation-name", animationName), ("animation-duration", Measure.time),
    ("animation-delay", Measure.time), ("animation-timing-function", course),
    ("animation-iteration-count", times), ("animation-direction", oneOf ways),
    ("animation-fill-mode", oneOf fills), ("animation-play-state", oneOf plays),
    ("animation-timeline", timeline),
    ("animation-composition", oneOf ["replace", "add", "accumulate"])].map
    fun (name, grammar) => (name, listedText grammar)

end Motion

end Property

end ComponentPack.Stylesheet
