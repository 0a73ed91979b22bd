import ComponentPack.Stylesheet.Lead

/-!
The rules of stylesheets. A stylesheet is a row of rules, each a lead and a block in braces, or a
statement that ends in a semicolon; blocks hold declarations and rules.
-/

namespace ComponentPack.Stylesheet

inductive Item where
  | declaration (property value : Text) (isImportant : Bool)
  | statement (name following : Text)
  | rule (lead : Text) (items : List Item)
  | block (lead inside : Text)

namespace Item

inductive Place where
  | rules
  | declarations
  | animation
deriving DecidableEq, Repr

/-- A value without the mark that makes it important, and whether it has one. Nothing else may
follow an exclamation mark. -/
def importance? (value : List Component) : Option (List Component × Bool) :=
  let plain := value.takeWhile fun component => !component.isMark '!'
  match Component.solid (value.drop plain.length) with
  | [] => some (plain, false)
  | [_, .token (.name text)] =>
    if Text.lower text = "important" then some (plain, true) else none
  | _ => none

def declaration? (tokens : List Token) : Option Item :=
  match Component.read tokens with
  | .token (.name name) :: rest =>
    match rest.dropWhile Component.isBlank with
    | colon :: value =>
      if colon.isMark ':' then do
        let (value, isImportant) ← importance? value
        let (property, value) ← Property.declared? name value
        return .declaration property value isImportant
      else none
    | [] => none
  | _ => none

def afterBlanks (tokens : List Token) : List Token :=
  tokens.dropWhile fun token => token = .blank ∨ token = .comment

/-- Whether tokens begin a declaration of one's own property, whose value may have braces. -/
def beginsOwn : List Token → Bool
  | .name text :: rest =>
    ['-', '-'].isPrefixOf text && (afterBlanks rest).head? == some (.mark ':')
  | _ => false

def lead? (place : Place) (tokens : List Token) : Option Text :=
  let row := Component.read tokens
  match place with
  | .rules => (Selector.read? false row).map Selector.texts
  | .declarations => (Selector.read? true row).map Selector.texts
  | .animation => Lead.places? row

/-- What the block of a rule with a name after `@` holds, if something is known of it. -/
def Place.inside? (place : Place) (name : Text) : Option Place :=
  match Lead.contentOf name with
  | .same => some place
  | .declarations => some .declarations
  | .places => some .animation
  | .tokens => none

/-- The order in which the items of a block are written: of declarations in a row, the important
ones come last. The first two lists are those of the row so far. -/
def ordered (plain important : List Item) : List Item → List Item
  | [] => plain ++ important
  | declaration property value isImportant :: items =>
    let item := declaration property value isImportant
    if isImportant then ordered plain (important ++ [item]) items
    else ordered (plain ++ [item]) important items
  | item :: items => plain ++ important ++ item :: ordered [] [] items

/-- Puts items before those that are read after them. A name of characters is not kept. -/
def add (items : List Item) : List Item × List Token → List Item × List Token
  | (others, rest) => (items.filter isKept ++ others, rest)
where
  isKept : Item → Bool
    | .statement name _ => name ≠ "charset"
    | _ => true

/-- The items of a rule with a name after `@`: the rule, or what is in it if it applies always. -/
def ruled (name following : Text) (items : List Item) : List Item :=
  if Lead.isAlways name following then items
  else [.rule (Lead.text name following) (ordered [] [] items)]

/-- Reads items up to the end of their block, and gives the rest; a block that is still open at the
end is closed there, but none can be closed that is not open. Each step takes a token, so there is
fuel for as many as there are. -/
def readFrom (place : Place) (isOpen : Bool) : Nat → List Token → Option (List Item × List Token)
  | 0, _ => some ([], [])
  | fuel + 1, tokens =>
    match tokens with
    | [] => some ([], [])
    | .blank :: rest | .comment :: rest => readFrom place isOpen fuel rest
    | .fence _ :: rest => if isOpen then none else readFrom place isOpen fuel rest
    | .mark '\x7d' :: rest => if isOpen then some ([], rest) else none
    | .mark ';' :: rest => if isOpen then readFrom place isOpen fuel rest else none
    | .atName name :: rest => do
      let (taken, rest) ← Token.before? [';', '\x7b', '\x7d'] [] rest
      let following ← Lead.following? name (Component.read taken)
      match rest with
      | .mark '\x7b' :: rest =>
        if !Lead.takesBlock name then none
        else
          match place.inside? name with
          | some inside => do
            let (items, rest) ← readFrom inside true fuel rest
            (readFrom place isOpen fuel rest).map (add (ruled name following items))
          | none => do
            let (inside, rest) ← Token.before? ['\x7d'] [] rest
            let inside ← Plain.text? (Component.read inside)
            let item := .block (Lead.text name following) inside
            (readFrom place isOpen fuel (rest.drop 1)).map (add [item])
      | rest =>
        if !Lead.standsAlone name then none
        else
          let rest := if rest.head? = some (.mark ';') then rest.drop 1 else rest
          (readFrom place isOpen fuel rest).map (add [.statement (Text.lower name) following])
    | token :: _ => do
      let marks := if beginsOwn tokens then [';', '\x7d'] else [';', '\x7b', '\x7d']
      let (taken, rest) ← Token.before? marks [] tokens
      match rest, place, token with
      | .mark '\x7b' :: rest, _, _ =>
        let lead ← lead? place taken
        let (items, rest) ← readFrom .declarations true fuel rest
        (readFrom place isOpen fuel rest).map (add [.rule lead (ordered [] [] items)])
      | rest, .declarations, .name _ =>
        let item ← declaration? taken
        (readFrom place isOpen fuel rest).map (add [item])
      | _, _, _ => none

/-- How far a stylesheet is after an item at a stage: layers are named first, then other stylesheets
are imported, and then spaces of names are introduced. There is none for an item that comes late. -/
def stage? (stage : Nat) : Item → Option Nat
  | statement name _ =>
    match String.ofList name with
    | "layer" => some (if stage ≤ 1 then 1 else 4)
    | "import" => if stage ≤ 2 then some 2 else none
    | "namespace" => if stage ≤ 3 then some 3 else none
    | _ => some 4
  | _ => some 4

def read? (tokens : List Token) : Option (List Item) := do
  let (items, _) ← readFrom .rules false (tokens.length + 1) tokens
  let _ ← items.foldlM stage? 0
  return items

def needsSemicolon : Item → Bool
  | declaration _ _ _ | statement _ _ => true
  | rule _ _ | block _ _ => false

mutual

def text : Item → Text
  | declaration property value isImportant =>
    property ++ ':' :: value ++ if isImportant then "!important".toList else []
  | statement name following => Lead.text name following
  | rule lead items => lead ++ '\x7b' :: texts items ++ ['\x7d']
  | block lead inside => lead ++ '\x7b' :: inside ++ ['\x7d']

def texts : List Item → Text
  | [] => []
  | item :: items =>
    text item ++ (if item.needsSemicolon ∧ !items.isEmpty then [';'] else []) ++ texts items

end

end Item

end ComponentPack.Stylesheet
