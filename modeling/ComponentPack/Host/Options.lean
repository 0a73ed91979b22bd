import ComponentPack.Text.Basic

/-!
Options among the arguments of a program. Options and operands may stand in any order; `--` ends the
options. A long option may be shortened as long as one option is meant.
-/

namespace ComponentPack.Host

structure OptionRule where
  letter : Char
  /-- The letter can be written after one hyphen. -/
  isShort : Bool := true
  long : Option Text := none
  hasValue : Bool := false

structure Choice where
  letter : Char
  value : Text := []
deriving DecidableEq, Repr

inductive OptionFault where
  | unknownLetter (letter : Char)
  | unknownName (argument : Text)
  | ambiguous (argument : Text) (names : List Text)
  | letterNeedsValue (letter : Char)
  | nameNeedsValue (name : Text)
  | nameTakesNoValue (name : Text)
deriving DecidableEq, Repr

namespace OptionFault

def message : OptionFault → Text
  | unknownLetter letter => "invalid option -- '" ++ [letter] ++ "'"
  | unknownName argument => "unrecognized option '" ++ argument ++ "'"
  | ambiguous argument names =>
    "option '".toList ++ argument ++ "' is ambiguous; possibilities:".toList ++
      names.flatMap fun name => " '--".toList ++ name ++ "'".toList
  | letterNeedsValue letter =>
    "option requires an argument -- '" ++ [letter] ++ "'"
  | nameNeedsValue name => "option '--" ++ name ++ "' requires an argument"
  | nameTakesNoValue name => "option '--" ++ name ++ "' doesn't allow an argument"

end OptionFault

namespace OptionRule

def meant (rules : List OptionRule) (name : Text) : List (OptionRule × Text) :=
  let named := rules.filterMap fun rule => rule.long.map fun long => (rule, long)
  match named.find? fun (_, long) => long = name with
  | some rule => [rule]
  | none => named.filter fun (_, long) => name.isPrefixOf long

/-- Reads the letters of one argument. The last one may take its value from the arguments that
follow; the second result tells whether it has. -/
def letters (rules : List OptionRule) (next? : Option Text) :
    Text → Except OptionFault (List Choice × Bool)
  | [] => .ok ([], false)
  | letter :: rest =>
    match rules.find? fun rule => rule.isShort ∧ rule.letter = letter with
    | none => .error (.unknownLetter letter)
    | some rule =>
      if !rule.hasValue then
        match letters rules next? rest with
        | .error e => .error e
        | .ok (choices, taken) => .ok (⟨letter, []⟩ :: choices, taken)
      else if !rest.isEmpty then .ok ([⟨letter, rest⟩], false)
      else
        match next? with
        | some value => .ok ([⟨letter, value⟩], true)
        | none => .error (.letterNeedsValue letter)

def name (rules : List OptionRule) (next? : Option Text) (text : Text) :
    Except OptionFault (Choice × Bool) :=
  let (shortened, given?) : Text × Option Text :=
    match Text.cut? ['='] text with
    | some (shortened, value) => (shortened, some value)
    | none => (text, none)
  match meant rules shortened with
  | [] => .error (.unknownName ("--" ++ text))
  | [(rule, long)] =>
    match rule.hasValue, given?, next? with
    | false, none, _ => .ok (⟨rule.letter, []⟩, false)
    | false, some _, _ => .error (.nameTakesNoValue long)
    | true, some value, _ => .ok (⟨rule.letter, value⟩, false)
    | true, none, some value => .ok (⟨rule.letter, value⟩, true)
    | true, none, none => .error (.nameNeedsValue long)
  | several => .error (.ambiguous ("--" ++ text) (several.map Prod.snd))

/-- What the arguments of a program ask for: the options up to the first fault, the fault, and the
operands. -/
structure Request where
  choices : List Choice := []
  fault? : Option OptionFault := none
  operands : List Text := []

/-- Reads arguments. `skip` tells that the first of them has been taken as a value. -/
def readFrom (rules : List OptionRule) (skip : Bool) : List Text → Request
  | [] => {}
  | argument :: rest =>
    let add (choices : List Choice) (taken : Bool) : Request :=
      let request := readFrom rules taken rest
      { request with choices := choices ++ request.choices }
    if skip then readFrom rules false rest
    else
      match argument with
      | ['-', '-'] => { operands := rest }
      | '-' :: '-' :: text =>
        match name rules rest.head? text with
        | .error e => { fault? := some e }
        | .ok (choice, taken) => add [choice] taken
      | '-' :: letter :: text =>
        match letters rules rest.head? (letter :: text) with
        | .error e => { fault? := some e }
        | .ok (choices, taken) => add choices taken
      | operand =>
        let request := readFrom rules false rest
        { request with operands := operand :: request.operands }

def read (rules : List OptionRule) (arguments : List Text) : Request :=
  readFrom rules false arguments

end OptionRule

end ComponentPack.Host
