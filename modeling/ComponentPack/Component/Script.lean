import ComponentPack.Component.Section

/-!
The script section of a component: an object that is exported by default. Its members are the text
between the braces of `export default { ... }`, after which one semicolon may stand.
-/

namespace ComponentPack.Component.Script

def withoutLast? (c : Char) (text : Text) : Option Text := [c].isSuffixOf? text

/-- The object body that `export default` introduces, up to the end of the text. -/
def afterDefault? (script : Text) : Option Text :=
  match "export".toList.isPrefixOf? (Text.trim script) with
  | some (c :: rest) =>
    if Text.isBlank c then
      match "default".toList.isPrefixOf? (Text.trimStart rest) with
      | some rest => ['\x7b'].isPrefixOf? (Text.trimStart rest)
      | none => none
    else none
  | _ => none

/-- The members of the exported object, without the blanks around them. -/
def members? (script : Text) : Option Text :=
  match afterDefault? script with
  | none => none
  | some rest =>
    let rest := Text.trimEnd rest
    let rest := Text.trimEnd ((withoutLast? ';' rest).getD rest)
    (withoutLast? '\x7d' rest).map Text.trim

def members (script : Text) : Except SectionError Text :=
  match members? script with
  | some body => .ok body
  | none => .error .missingDefaultExport

end ComponentPack.Component.Script
