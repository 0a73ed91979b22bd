import ComponentPack.Module.Assemble
import ComponentPack.Proofs.Json.Printed

/-!
The template of a debug module. The literal begins after the first line of the module that ends in
a backslash, whatever the name, the messages and the runtime names are, and no template can end it
early; what stands in it reads back as the template, up to the blanks around it and the spelling of
its line breaks.
-/

set_option autoImplicit false

namespace ComponentPack.Module

open Text

/-- What a template literal stands for: a line break with the two blanks after it is a line feed,
`\r` is a carriage return, and any other escaped character is itself. -/
def unembed : Text → Text
  | [] => []
  | '\\' :: '\n' :: rest => '\n' :: unembed (rest.drop 2)
  | '\\' :: 'r' :: rest => '\r' :: unembed rest
  | '\\' :: c :: rest => c :: unembed rest
  | ['\\'] => []
  | c :: rest => c :: unembed rest
termination_by text => text.length
decreasing_by all_goals simp only [List.length_cons, List.length_drop]; omega

/-- A text with each carriage return that precedes a line feed left out. -/
def unifyBreaks : Text → Text
  | [] => []
  | '\r' :: '\n' :: rest => '\n' :: unifyBreaks rest
  | c :: rest => c :: unifyBreaks rest

theorem unembed_break (rest : Text) :
    unembed ('\\' :: '\n' :: ' ' :: ' ' :: rest) = '\n' :: unembed rest := by
  rw [unembed]
  rfl

theorem unembed_escaped {c : Char} (feed : c ≠ '\n') (letter : c ≠ 'r') (rest : Text) :
    unembed ('\\' :: c :: rest) = c :: unembed rest := by
  rw [unembed]
  · exact feed
  · exact letter

theorem unembed_plain {c : Char} (plain : c ≠ '\\') (rest : Text) :
    unembed (c :: rest) = c :: unembed rest := by
  rw [unembed]
  all_goals simp [plain]

theorem unembed_embedTrimmed (text : Text) : unembed (embedTrimmed text) = unifyBreaks text := by
  induction text using embedTrimmed.induct with
  | case1 => rw [embedTrimmed, unembed, unifyBreaks]
  | case2 rest ih => rw [embedTrimmed, unembed_break, unifyBreaks, ih]
  | case3 c rest pair ih =>
    rw [embedTrimmed.eq_3 _ _ pair, unifyBreaks.eq_3 _ _ pair, ← ih]
    split
    · next h =>
      subst h
      exact unembed_escaped (by decide) (by decide) _
    · split
      · next h =>
        subst h
        exact unembed_escaped (by decide) (by decide) _
      · split
        · next h =>
          subst h
          exact unembed.eq_3 _
        · split
          · next h =>
            subst h
            exact unembed_break _
          · next slash _ _ _ => exact unembed_plain slash _

theorem head?_embedTrimmed (text : Text) : (embedTrimmed text).head? ≠ some '\n' := by
  cases text using embedTrimmed.fun_cases with
  | case1 => simp [embedTrimmed]
  | case2 rest => simp [embedTrimmed]
  | case3 c rest pair =>
    rw [embedTrimmed.eq_3 _ _ pair]
    split_ifs with h1 h2 h3 h4 <;> simp [*]

/-- A line feed in a literal follows a backslash, never a comma. -/
theorem not_infix_embedTrimmed (text : Text) : ¬ [',', '\n'] <:+: embedTrimmed text := by
  -- Each piece in front of the rest either has no comma or is a lone one.
  have cons {c : Char} {rest : Text} (free : ¬ [',', '\n'] <:+: rest)
      (apart : c = ',' → rest.head? ≠ some '\n') : ¬ [',', '\n'] <:+: c :: rest := by
    rw [List.infix_cons_iff, not_or]
    refine ⟨fun early => ?_, free⟩
    obtain ⟨same, ⟨after, split⟩⟩ := List.cons_prefix_cons.mp early
    exact apart same.symm (by rw [← split]; rfl)
  induction text using embedTrimmed.induct with
  | case1 => simp [embedTrimmed]
  | case2 rest ih =>
    rw [embedTrimmed]
    exact cons (cons (cons (cons ih (by simp)) (by simp)) (by simp)) (by simp)
  | case3 c rest pair ih =>
    rw [embedTrimmed.eq_3 _ _ pair]
    split
    · exact cons (cons ih (by simp)) (by simp)
    · split
      · exact cons (cons ih (by simp)) (by simp)
      · split
        · exact cons (cons ih (by simp)) (by simp)
        · split
          · exact cons (cons (cons (cons ih (by simp)) (by simp)) (by simp)) (by simp)
          · exact cons ih fun _ => head?_embedTrimmed rest

/-- What stands before a template literal: the end of its first line, and the blanks of the next. -/
def literalStart : Text := "template: '\\\n  "

/-- What stands after a template literal. -/
def literalEnd : Text := "',\n"

/-- The lines of a module before the member that renders. -/
def openingLines (runtime : Render.Runtime) (name : Text) (attachment : Attachment)
    (messages : Localization.Table) : Text :=
  line (runtime.register ++ "('" ++ escapeName name ++ "', \x7b") ++
    line ("  name: '" ++ escapeName name ++ "',") ++
    line "  setup() \x7b" ++
    constantLines attachment ++
    line ("    const \x7b t \x7d = " ++ runtime.useLocalization ++
      "(\x7b\x7d);") ++
    line ("    const localeMessages = " ++ indentTail 4 messages.pretty ++ [';']) ++
    line "    Object.keys(localeMessages).forEach((locale) => \x7b" ++
    line ("      " ++ runtime.localizationStore ++
      ".mergeLocaleMessage(locale, localeMessages[locale]);") ++
    line "    \x7d);" ++
    line ("    return \x7b " ++ List.intercalate ", " (exposedNames attachment) ++
      " \x7d;") ++
    line "  \x7d,"

/-- The lines of a module after the member that renders. -/
def closingLines (members : Text) : Text :=
  ifAny (Text.trim members) (fun members => line ("  " ++ members)) ++ line "\x7d)"

theorem assemble_eq (runtime : Render.Runtime) (name : Text) (attachment : Attachment)
    (members : Text) (messages : Localization.Table) :
    assemble runtime name attachment members messages =
      openingLines runtime name attachment messages ++
        (renderLines attachment ++ closingLines members) := by
  simp only [assemble, openingLines, closingLines, List.append_assoc]

theorem templateLines_eq (embedded : Text) :
    templateLines embedded = "  " ++ (literalStart ++ (embedded ++ literalEnd)) := by
  have opening : "  template: '\\" ++ (['\n'] ++ "  ") =
      "  " ++ literalStart := by decide
  have closing : "'," ++ ['\n'] = literalEnd := by decide
  rw [← List.append_assoc "  ".toList, ← opening, ← closing]
  simp only [templateLines, line, List.append_assoc]

theorem newline_not_mem_escapeName (name : Text) : '\n' ∉ escapeName name := by
  intro inside
  obtain ⟨c, -, member⟩ := List.mem_flatMap.mp inside
  split_ifs at member with h1 h2 h3 <;> simp at member
  exact h3 member.symm

/-- A line with a known end. -/
theorem uncontinued_line {text ending : Text} (single : '\n' ∉ text) (feed : '\n' ∉ ending)
    (last : ending.getLast?.any (· ≠ '\\') = true) : Uncontinued (line (text ++ ending)) := by
  have whole : Uncontinued (text ++ ending) := by
    refine .of_line (by simp [single, feed]) fun slash => ?_
    obtain ⟨c, ends, other⟩ := (Option.any_eq_true _ _).mp last
    rw [List.getLast?_append, ends, Option.some_or, Option.some.injEq] at slash
    simp [slash] at other
  exact whole.append (.of_plain (by decide))

/-- No line before the template ends in a backslash. -/
theorem uncontinued_openingLines {runtime : Render.Runtime} (register : '\n' ∉ runtime.register)
    (helper : '\n' ∉ runtime.useLocalization) (store : '\n' ∉ runtime.localizationStore)
    (name template : Text) (messages : Localization.Table) :
    Uncontinued (openingLines runtime name (.template template) messages) := by
  have printed := Json.Printed.prettyAt 0 messages.toJson
  have escaped := newline_not_mem_escapeName name
  have fixed {text : Text} (plain : '\\' ∉ text) : Uncontinued (line text) :=
    (Uncontinued.of_plain plain).append (.of_plain (by decide))
  have values : Uncontinued
      (line ("    const localeMessages = " ++ indentTail 4 messages.pretty ++ [';'])) := by
    have indented := uncontinued_indentTail 4 printed.uncontinued printed.returns
    exact (((Uncontinued.of_plain (by decide)).append indented).append
      (.of_plain (by decide))).append (.of_plain (by decide))
  have named : Uncontinued
      (line (runtime.register ++ "('" ++ escapeName name ++ "', \x7b")) :=
    uncontinued_line (by simp [register, escaped]) (by decide) (by decide)
  have again : Uncontinued (line ("  name: '" ++ escapeName name ++ "',")) :=
    uncontinued_line (by simp [escaped]) (by decide) (by decide)
  have helping : Uncontinued (line ("    const \x7b t \x7d = " ++ runtime.useLocalization ++
      "(\x7b\x7d);")) :=
    uncontinued_line (by simp [helper]) (by decide) (by decide)
  have storing : Uncontinued (line ("      " ++ runtime.localizationStore ++
      ".mergeLocaleMessage(locale, localeMessages[locale]);")) :=
    uncontinued_line (by simp [store]) (by decide) (by decide)
  have returning : Uncontinued (line ("    return \x7b " ++
      List.intercalate ", " (exposedNames (.template template)) ++ " \x7d;")) :=
    uncontinued_line (by rw [exposedNames, List.intercalate_singleton]; decide) (by decide)
      (by decide)
  exact (((((((((named.append again).append (fixed (by decide))).append .nil).append
    helping).append values).append (fixed (by decide))).append storing).append
    (fixed (by decide))).append returning).append (fixed (by decide))

/-- The first literal start of a debug module is that of its template, the first literal end after
it ends the template, and what stands between them reads back as the template. -/
theorem template_of_assemble {runtime : Render.Runtime} (register : '\n' ∉ runtime.register)
    (helper : '\n' ∉ runtime.useLocalization) (store : '\n' ∉ runtime.localizationStore)
    (name template members : Text) (messages : Localization.Table) :
    ∃ before rest after,
      Text.cut? literalStart (assemble runtime name (.template template) members messages) =
        some (before, rest) ∧
      Text.cut? literalEnd rest = some (embed template, after) ∧
      unembed (embed template) = unifyBreaks (Text.trim template) := by
  have opening := (uncontinued_openingLines register helper store name template messages).append
    (Uncontinued.of_plain (show '\\' ∉ "  ".toList by decide))
  have module : assemble runtime name (.template template) members messages =
      (openingLines runtime name (.template template) messages ++ "  ".toList) ++
        (literalStart ++ (embed template ++ (literalEnd ++ closingLines members))) := by
    rw [assemble_eq, renderLines, templateLines_eq]
    simp only [List.append_assoc]
  have ending : ¬ literalEnd <:+: embed template := fun occurs =>
    not_infix_embedTrimmed _ (List.IsInfix.trans ⟨['\''], [], by decide⟩ occurs)
  refine ⟨openingLines runtime name (.template template) messages ++ "  ".toList,
    embed template ++ (literalEnd ++ closingLines members), closingLines members, ?_, ?_,
    unembed_embedTrimmed _⟩
  · rw [module]
    refine cut?_append_of_borderless _ (borderless_of_take_ne (by decide)) (by decide) ?_
    exact fun occurs => opening.inner
      (List.IsInfix.trans ⟨"template: '".toList, "  ".toList, by decide⟩ occurs)
  · exact cut?_append_of_borderless _ (borderless_of_take_ne (by decide)) (by decide) ending

/-- A template that forges both ends of the literal, and has a carriage return of each kind. -/
theorem template_of_assemble_forged :
    ∃ before rest after,
      Text.cut? literalStart (assemble {} "it's".toList
        (.template "template: '\\\n  a',\r\n b\r".toList) "data()".toList .empty) =
        some (before, rest) ∧
      Text.cut? literalEnd rest =
        some ("template: \\'\\\\\\\n    a\\',\\\n   b".toList, after) := by
  obtain ⟨before, rest, after, start, ends, -⟩ := @template_of_assemble {} (by decide)
    (by decide) (by decide) "it's".toList "template: '\\\n  a',\r\n b\r".toList "data()".toList
    .empty
  exact ⟨before, rest, after, start, ends⟩

end ComponentPack.Module
