import ComponentPack.Path

/-!
The files of a new project: settings with their usual values, and an example component.
-/

namespace ComponentPack.Command

def textOfLines (lines : List String) : Text := lines.flatMap fun line => line.toList ++ ['\n']

def exampleSettings : Text := textOfLines [
  "# sfcpack configuration",
  "# Relative paths resolve against the directory of this file.",
  "",
  "[components]",
  "# Directory containing your .vue components",
  "dir = \"website/vue\"",
  "",
  "[build]",
  "# \"debug\" embeds templates as strings, \"release\" compiles them to render functions",
  "mode = \"debug\"",
  "",
  "# Also write minified stylesheets (<Component>.vue.min.css)",
  "minify = false",
  "",
  "# Working directory and executable for the template compiler (release mode)",
  "work_dir = \".sfcpack\"",
  "node = \"node\"",
  "node_args = []",
  "timeout_secs = 120",
  "",
  "[runtime]",
  "# Globals the generated modules expect from the host page",
  "register = \"app.component\"",
  "namespace = \"Vue\"",
  "use_i18n = \"VueI18n.useI18n\"",
  "i18n_global = \"i18n.global\"",
  "hoisted_prefix = \"r_itm_\"",
  "",
  "[i18n]",
  "# Output directories of `sfcpack i18n`",
  "json_dir = \"website/json\"",
  "js_dir = \"website/js\""]

def exampleComponent : Text := textOfLines [
  "<template>",
  "  <div class=\"hello-world\">",
  "    <h1>\x7b\x7b t('title') \x7d\x7d</h1>",
  "    <button @click=\"count++\">\x7b\x7b t('clicked', \x7b count \x7d) \x7d\x7d</button>",
  "  </div>",
  "</template>",
  "",
  "<script>",
  "export default \x7b",
  "  data() \x7b",
  "    return \x7b",
  "      count: 0",
  "    \x7d",
  "  \x7d",
  "\x7d",
  "</script>",
  "",
  "<style>",
  ".hello-world \x7b",
  "  font-family: sans-serif;",
  "  text-align: center;",
  "\x7d",
  "</style>",
  "",
  "<i18n>",
  "\x7b",
  "  \"en\": \x7b",
  "    \"title\": \"Hello World\",",
  "    \"clicked\": \"Clicked \x7bcount\x7d times\"",
  "  \x7d,",
  "  \"de\": \x7b",
  "    \"title\": \"Hallo Welt\",",
  "    \"clicked\": \"\x7bcount\x7d mal geklickt\"",
  "  \x7d",
  "\x7d",
  "</i18n>"]

def exampleFile : Path := .ofString "HelloWorld.vue"

end ComponentPack.Command
