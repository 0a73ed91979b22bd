import Mathlib
import ComponentPack.Command.Run
import ComponentPack.Proofs.Files.Atomic

/-!
Starting a project. The settings and the example component are put where a build looks for them;
files that are there are kept unless they are to be overwritten, so that starting again changes
nothing.
-/

set_option autoImplicit false

namespace ComponentPack.Command

open Files Files.Disk ComponentPack.Path

variable {disk after : Disk} {overwrite wrote : Bool} {path config : Path} {content : ByteArray}
  {settings : Settings}

/-- A path ends in a name, in a directory that is there. -/
def Site (disk : Disk) (path : Path) : Prop := disk.Entry path (disk.placeOf path)

namespace Site

theorem doesExist_eq (site : Site disk path) (free : disk.LinkFree) :
    disk.doesExist path = (disk.node? (disk.placeOf path)).isSome := by
  rw [doesExist, site.resolve_eq (.inr (free _)), foundAt]
  cases disk.node? (disk.placeOf path) <;> rfl

theorem read_eq_ok_iff (site : Site disk path) (free : disk.LinkFree) :
    disk.read path = .ok content ↔ disk.node? (disk.placeOf path) = some (.file content) := by
  rw [Disk.read, site.resolve_eq (.inr (free _)), foundAt]
  cases disk.node? (disk.placeOf path) with
  | none => simp
  | some node => cases node <;> simp

theorem mono {area : Set Location} (site : Site disk path) (free : disk.LinkFree)
    (grows : Grows area disk after) : Site after path := by
  rw [Site, grows.placeOf_eq]
  exact Entry.mono (grows.keeps fun l _ => free l) site

end Site

theorem site_of_entry {l : Location} (free : disk.LinkFree) (entry : disk.Entry path l) :
    Site disk path ∧ l = disk.placeOf path := by
  have place : l = disk.placeOf path := by
    obtain ⟨-, base, name, above, named, rfl, reaches, -, rfl⟩ := entry
    rw [(reaches.opensPath free).2, placeOf_join disk base named]
  exact ⟨by rwa [Site, ← place], place⟩

theorem site_of_read (free : disk.LinkFree) (tree : disk.IsTree)
    (found : disk.read path = .ok content) : Site disk path := by
  obtain ⟨l, resolved⟩ := Disk.read_eq_ok_iff.mp found
  obtain ⟨l, entry, -⟩ := entry_of_resolve tree resolved
    (endsInSlash_of_resolve resolved (by simp) (.inr (by simp))) (by simp)
  exact (site_of_entry free entry).1

theorem of_write_eq_ok (free : disk.LinkFree) (tree : disk.IsTree)
    (wrote : disk.write path content = .ok after) :
    Site disk path ∧ disk.node? (disk.placeOf path) ≠ some .directory ∧
      after = disk.setNode (disk.placeOf path) (.file content) := by
  obtain ⟨l, entry, plain, rfl⟩ := of_write tree wrote fun l target found =>
    free l target (resolve_eq_ok_iff.mp found).2.node?_eq
  obtain ⟨site, rfl⟩ := site_of_entry free entry
  exact ⟨site, plain.ne_directory, rfl⟩

/-- A file is put at a path, or what is there is kept. -/
inductive Puts (disk : Disk) (overwrite : Bool) (path : Path) (content : ByteArray) :
    Disk → Prop
  | kept (keeps : overwrite = false) (there : disk.doesExist path = true) :
    Puts disk overwrite path content disk
  | put (site : Site disk path) (vacant : disk.node? (disk.placeOf path) ≠ some .directory)
    (missing : overwrite = false → disk.node? (disk.placeOf path) = none) :
    Puts disk overwrite path content (disk.setNode (disk.placeOf path) (.file content))

theorem puts_of_putFile (free : disk.LinkFree) (tree : disk.IsTree) {text : Text}
    (result : putFile disk overwrite path text = (.ok wrote, after)) :
    Puts disk overwrite path (Text.toBytes text) after := by
  rw [putFile] at result
  split at result
  · next needed =>
    split at result
    · next written =>
      obtain ⟨-, rfl⟩ := Prod.mk.inj result
      obtain ⟨site, vacant, rfl⟩ := of_write_eq_ok free tree written
      refine .put site vacant fun keeps => ?_
      rw [site.doesExist_eq free, keeps] at needed
      simpa using needed
    · simp at result
  · next kept =>
    obtain ⟨-, rfl⟩ := Prod.mk.inj result
    exact .kept (by simp_all) (by simp_all)

theorem putFile_of_doesExist (there : disk.doesExist path = true) (text : Text) :
    putFile disk false path text = (.ok false, disk) := by
  rw [putFile, there]
  rfl

theorem putFile_overwrite {l : Location} {old : ByteArray}
    (resolved : disk.resolve .creation path = .ok (.present l (.file old))) (text : Text) :
    putFile disk true path text = (.ok true, disk.setNode l (.file (Text.toBytes text))) := by
  rw [putFile, Bool.or_true, if_pos rfl, write, resolved]

/-- Files and directories are added where nothing was. -/
def Adds (before after : Disk) : Prop := Grows {l | before.node? l = none} before after

theorem Adds.trans {a b c : Disk} (hab : Adds a b) (hbc : Adds b c) : Adds a c := by
  refine Grows.trans hab (hbc.mono fun l missing => by_contra fun present => ?_)
  rcases hab.outside l present with same | ⟨absent, -⟩
  · exact present (same.symm.trans missing)
  · exact present absent

theorem Adds.file (adds : Adds disk after) {l : Location}
    (there : disk.node? l = some (.file content)) : after.node? l = some (.file content) :=
  (Grows.file_iff adds (by simp [there])).mpr there

namespace Puts

variable (puts : Puts disk overwrite path content after)

include puts

theorem grows : Grows {disk.placeOf path} disk after := by
  cases puts with
  | kept => exact .refl _ disk
  | put site vacant => exact site.grows_setFile vacant content

theorem adds (keeps : overwrite = false) : Adds disk after := by
  cases puts with
  | kept => exact .refl _ disk
  | put site vacant missing =>
    exact (site.grows_setFile vacant content).mono (Set.singleton_subset_iff.mpr (missing keeps))

theorem doesExist (free : disk.LinkFree) : after.doesExist path = true := by
  cases puts with
  | kept _ there => exact there
  | put site vacant =>
    have grows := site.grows_setFile vacant content
    rw [(site.mono free grows).doesExist_eq (grows.free free), grows.placeOf_eq,
      node?_setNode _ site.ne_nil, if_pos rfl]
    rfl

theorem read_eq (free : disk.LinkFree) (forced : overwrite = true) :
    after.read path = .ok content := by
  cases puts with
  | kept keeps => simp [keeps] at forced
  | put site vacant =>
    have grows := site.grows_setFile vacant content
    rw [(site.mono free grows).read_eq_ok_iff (grows.free free), grows.placeOf_eq,
      node?_setNode _ site.ne_nil, if_pos rfl]

end Puts

theorem grows_ensureDirectory (disk : Disk) (path : Path) :
    Grows ∅ disk (ensureDirectory disk path).2 := by
  rw [ensureDirectory]
  split
  · exact .refl ∅ disk
  · exact grows_createNested disk _

theorem isName_exampleFile : IsName exampleFile.text := by
  constructor <;> decide +kernel

theorem doesExist_of_read (found : disk.read path = .ok content) : disk.doesExist path = true := by
  obtain ⟨l, resolved⟩ := Disk.read_eq_ok_iff.mp found
  rw [doesExist, resolved]

/-- The directory of an example that is there is not made again. -/
theorem ensureDirectory_of_doesExist (free : disk.LinkFree) {directory : Path}
    (there : disk.doesExist (directory.join exampleFile) = true) :
    ensureDirectory disk directory = (.ok (), disk) := by
  rw [ensureDirectory]
  split
  · rfl
  · next missing =>
    by_cases empty : directory.text = []
    · have none : ancestors ⟨[]⟩ = [] := by decide
      rw [createDirectories, show directory = ⟨[]⟩ from congrArg Path.mk empty, none]
      rfl
    · rw [doesExist] at there
      cases resolved : disk.resolve .target (directory.join exampleFile) with
      | error fault => simp [resolved] at there
      | ok found =>
        have opens := opensPath_of_resolve_join free isName_exampleFile resolved
        have accepted := refusal?_of_isPrefix (prefix_join directory isName_exampleFile)
          (resolve_eq_ok_iff.mp resolved).1 empty
        rw [doesExist, resolve_of_opensPath free (by simp) opens, accepted] at missing
        simp at missing

theorem load_eq_ok (read : disk.read path = .ok content) {text : Text}
    (decoded : Text.ofBytes? content = some text)
    (parsed : Settings.parse? (Settings.baseOf path) text = some settings) :
    (Settings.load disk path).1 = .ok settings := by
  simp [Settings.load, doesExist_of_read read, readText, read, decoded, parsed]

theorem of_load_eq_ok (there : disk.doesExist path = true)
    (loaded : (Settings.load disk path).1 = .ok settings) :
    ∃ content text, disk.read path = .ok content ∧ Text.ofBytes? content = some text ∧
      Settings.parse? (Settings.baseOf path) text = some settings := by
  rw [Settings.load, there] at loaded
  simp only [Bool.not_true, Bool.false_eq_true, if_false, readText] at loaded
  cases read : disk.read path with
  | error fault => simp [read] at loaded
  | ok content =>
    cases decoded : Text.ofBytes? content with
    | none => simp [read, decoded] at loaded
    | some text =>
      cases parsed : Settings.parse? (Settings.baseOf path) text with
      | none => simp [read, decoded, parsed] at loaded
      | some found =>
        refine ⟨content, text, rfl, decoded, ?_⟩
        simpa [read, decoded, parsed] using loaded

theorem ofMembers?_eq (base : Path) (members : List (Text × Toml.Value)) :
    Settings.ofMembers? base members =
      (Settings.ofMembers? ⟨[]⟩ members).map fun settings => { settings with base := base } := by
  simp [Settings.ofMembers?, Option.map_bind]

theorem componentDirectory_example {base : Path}
    (parsed : Settings.parse? base exampleSettings = some settings) :
    settings.componentDirectory none = base.join ⟨"website".toList ++ '/' :: "vue".toList⟩ := by
  have usual : ((Toml.parse? exampleSettings).bind (Settings.ofMembers? ⟨[]⟩)).map (·.directory) =
      some "website/vue".toList := by decide +kernel
  rw [Settings.parse?] at parsed
  cases members : Toml.parse? exampleSettings with
  | none => simp [members] at parsed
  | some members' =>
    rw [members, Option.bind_some] at usual parsed
    rw [ofMembers?_eq] at parsed
    obtain ⟨found, first, rfl⟩ := Option.map_eq_some_iff.mp parsed
    rw [first, Option.map_some, Option.some.injEq] at usual
    simp [Settings.componentDirectory, Settings.resolve, usual]

theorem join_append {a b : Text} (base : Path) (ha : IsName a) (hb : IsName b) :
    base.join ⟨a ++ '/' :: b⟩ = (base.join ⟨a⟩).join ⟨b⟩ := by
  have last : (base.join ⟨a⟩).text.getLast? ≠ some '/' := by
    simpa [endsInSlash] using endsInSlash_join base ha
  have relative : isAbsolute ⟨a ++ '/' :: b⟩ = isAbsolute ⟨a⟩ := by
    obtain ⟨c, rest, rfl⟩ := List.exists_cons_of_ne_nil ha.nonempty
    rfl
  rw [join_of_bare hb (join_text_ne_nil base ha) last, join, join, relative]
  split
  · rfl
  · split <;> simp

/-- The example does not take the place of the settings. -/
theorem placeOf_example_ne (disk : Disk) (base : Path) {name : Text} (named : IsName name) :
    disk.placeOf (((Settings.baseOf (base.join ⟨name⟩)).join
      ⟨"website" ++ '/' :: "vue"⟩).join exampleFile) ≠
        disk.placeOf (base.join ⟨name⟩) := by
  have website : IsName "website" := by constructor <;> decide +kernel
  have vue : IsName "vue" := by constructor <;> decide +kernel
  have above : Settings.baseOf (base.join ⟨name⟩) = base.bare := by
    rw [Settings.baseOf, parent?_join base named]
    rfl
  intro same
  rw [above, join_append base.bare website vue, show exampleFile = ⟨exampleFile.text⟩ from rfl,
    placeOf_join disk _ isName_exampleFile, placeOf_join disk _ vue, placeOf_join disk _ website,
    placeOf_join disk base named, placeOf_bare] at same
  simpa using congrArg List.length same

theorem adds_putFile (free : disk.LinkFree) (tree : disk.IsTree) (text : Text) :
    Adds disk (putFile disk false path text).2 := by
  generalize result : putFile disk false path text = pair
  obtain ⟨outcome, after⟩ := pair
  cases outcome with
  | ok wrote => exact (puts_of_putFile free tree result).adds rfl
  | error fault =>
    rw [putFile] at result
    split at result
    · split at result
      · simp at result
      · rw [← (Prod.mk.inj result).2]
        exact .refl _ disk
    · simp at result

/-- What a start comes to, but for what it tells. -/
theorem initProject_eq (overwrite : Bool) (config : Path) (disk : Disk) :
    ((initProject overwrite config disk).result, (initProject overwrite config disk).disk) =
      match putFile disk overwrite config exampleSettings with
      | (.error _, disk) => (.error (.settingsNotWritten config), disk)
      | (.ok _, disk) =>
        match (Settings.load disk config).1 with
        | .error e => (.error (.settings e), disk)
        | .ok settings =>
          match ensureDirectory disk (settings.componentDirectory none) with
          | (.error _, disk) => (.error .directoryNotCreated, disk)
          | (.ok (), disk) =>
            match putFile disk overwrite ((settings.componentDirectory none).join exampleFile)
              exampleComponent with
            | (.error _, disk) => (.error .exampleNotWritten, disk)
            | (.ok _, disk) => (.ok (), disk) := by
  rw [initProject]
  generalize putFile disk overwrite config exampleSettings = put
  obtain ⟨_ | wrote, first⟩ := put
  · rfl
  simp only
  generalize Settings.load first config = load
  obtain ⟨_ | settings, log⟩ := load
  · rfl
  simp only [putExample]
  generalize ensureDirectory first (settings.componentDirectory none) = made
  obtain ⟨_ | _, grown⟩ := made
  · rfl
  simp only
  generalize putFile grown overwrite _ exampleComponent = put
  obtain ⟨_ | wrote', after⟩ := put <;> rfl

theorem adds_initProject (free : disk.LinkFree) (tree : disk.IsTree) (config : Path) :
    Adds disk (initProject false config disk).disk := by
  have whole := congrArg Prod.snd (initProject_eq false config disk)
  simp only at whole
  rw [whole]
  have first := @adds_putFile disk config free tree exampleSettings
  generalize putFile disk false config exampleSettings = put at first ⊢
  obtain ⟨_ | wrote, begun⟩ := put
  · exact first
  simp only
  cases (Settings.load begun config).1 with
  | error fault => exact first
  | ok settings =>
    have second := first.trans
      ((grows_ensureDirectory begun (settings.componentDirectory none)).mono (Set.empty_subset _))
    simp only
    generalize ensureDirectory begun (settings.componentDirectory none) = made at second ⊢
    obtain ⟨_ | _, grown⟩ := made
    · exact second
    have third := second.trans (@adds_putFile grown
      ((settings.componentDirectory none).join exampleFile) (second.free free) (second.tree tree)
      exampleComponent)
    simp only
    generalize putFile grown false _ exampleComponent = put at third ⊢
    obtain ⟨_ | wrote', after⟩ := put <;> exact third

/-- The steps of a start that succeeds. -/
theorem of_initProject_eq_ok (succeeded : (initProject overwrite config disk).result = .ok ()) :
    ∃ first settings grown wrote wrote',
      putFile disk overwrite config exampleSettings = (.ok wrote, first) ∧
      (Settings.load first config).1 = .ok settings ∧
      ensureDirectory first (settings.componentDirectory none) = (.ok (), grown) ∧
      putFile grown overwrite ((settings.componentDirectory none).join exampleFile)
        exampleComponent = (.ok wrote', (initProject overwrite config disk).disk) := by
  have whole := initProject_eq overwrite config disk
  rw [succeeded] at whole
  generalize (initProject overwrite config disk).disk = last at whole ⊢
  split at whole
  · simp at whole
  next wrote first put =>
  split at whole
  · simp at whole
  next settings loaded =>
  split at whole
  · simp at whole
  next grown made =>
  split at whole
  · simp at whole
  next wrote' after put' =>
  obtain ⟨-, rfl⟩ := Prod.mk.inj whole
  exact ⟨first, settings, grown, wrote, wrote', put, loaded, made, put'⟩

/-- A start over what is there already. -/
theorem initProject_of_doesExist (free : disk.LinkFree) (there : disk.doesExist config = true)
    (loaded : (Settings.load disk config).1 = .ok settings) (example_there :
      disk.doesExist ((settings.componentDirectory none).join exampleFile) = true) :
    (initProject false config disk).result = .ok () ∧
      (initProject false config disk).disk = disk := by
  rw [← Prod.mk.injEq, initProject_eq, putFile_of_doesExist there]
  simp only [loaded, ensureDirectory_of_doesExist free example_there]
  rw [putFile_of_doesExist example_there]

/-- What the settings file holds is kept when the example is put into place. -/
theorem read_settings {first grown : Disk} (free : disk.LinkFree) (tree : disk.IsTree)
    (put : Puts disk overwrite config (Text.toBytes exampleSettings) first)
    (loaded : (Settings.load first config).1 = .ok settings) (grows : Grows ∅ first grown)
    (put' : Puts grown overwrite ((settings.componentDirectory none).join exampleFile)
      (Text.toBytes exampleComponent) after) :
    ∃ content text, first.read config = .ok content ∧ after.read config = .ok content ∧
      Text.ofBytes? content = some text ∧
      Settings.parse? (Settings.baseOf config) text = some settings := by
  have free' := put.grows.free free
  obtain ⟨content, text, read, decoded, parsed⟩ := of_load_eq_ok (put.doesExist free) loaded
  refine ⟨content, text, read, ?_, decoded, parsed⟩
  have site := site_of_read free' (put.grows.tree tree) read
  have there := (site.read_eq_ok_iff free').mp read
  rw [← grows.file_iff (Set.notMem_empty _)] at there
  have apart : overwrite = true → first.placeOf config ≠
      grown.placeOf ((settings.componentDirectory none).join exampleFile) := by
    intro forced
    rw [put.read_eq free forced] at read
    rw [← Except.ok.inj read, Text.ofBytes?_toBytes] at decoded
    rw [← Option.some.inj decoded] at parsed
    obtain ⟨-, base, name, -, named, rfl, -⟩ := site
    rw [componentDirectory_example parsed, grows.placeOf_eq]
    exact (placeOf_example_ne first base named).symm
  have kept : after.node? (first.placeOf config) = some (.file content) := by
    cases overwrite with
    | false => exact (put'.adds rfl).file there
    | true => exact (put'.grows.file_iff (mt Set.mem_singleton_iff.mp (apart rfl))).mpr there
  have site' := (site.mono free' grows).mono (grows.free free') put'.grows
  rw [site'.read_eq_ok_iff (put'.grows.free (grows.free free')), put'.grows.placeOf_eq,
    grows.placeOf_eq]
  exact kept

theorem initProject_repeats (overwrite : Bool) (config : Path) (disk : Disk)
    (free : disk.LinkFree) (tree : disk.IsTree) :
    let after := (initProject overwrite config disk).disk
    (overwrite = false → ∀ l content, disk.node? l = some (.file content) →
      after.node? l = some (.file content)) ∧
    ((initProject overwrite config disk).result = .ok () →
      (∃ settings, (Settings.load after config).1 = .ok settings ∧
        (∀ release minify, after.doesExist
          ((settings.buildOptions release minify none).directory.join exampleFile) = true) ∧
        after.doesExist ((settings.exportOptions none).directory.join exampleFile) = true ∧
        (overwrite = true → after.readText config = .ok exampleSettings ∧
          ∀ release minify, after.readText
            ((settings.buildOptions release minify none).directory.join exampleFile) =
              .ok exampleComponent)) ∧
      (initProject false config after).result = .ok () ∧
        (initProject false config after).disk = after) := by
  intro after
  refine ⟨?_, fun succeeded => ?_⟩
  · rintro rfl l content there
    exact (adds_initProject free tree config).file there
  obtain ⟨first, settings, grown, wrote, wrote', put, loaded, made, put'⟩ :=
    of_initProject_eq_ok succeeded
  change putFile grown _ _ _ = (_, after) at put'
  have puts := puts_of_putFile free tree put
  have grows : Grows ∅ first grown := by
    have := grows_ensureDirectory first (settings.componentDirectory none)
    rwa [made] at this
  have free' := grows.free (puts.grows.free free)
  have puts' := puts_of_putFile free' (grows.tree (puts.grows.tree tree)) put'
  obtain ⟨content, text, read, read', decoded, parsed⟩ :=
    read_settings free tree puts loaded grows puts'
  have loaded' := load_eq_ok read' decoded parsed
  have there := puts'.doesExist free'
  refine ⟨⟨settings, loaded', fun _ _ => there, there, fun forced => ⟨?_, fun _ _ => ?_⟩⟩, ?_⟩
  · rw [puts.read_eq free forced] at read
    rw [← Except.ok.inj read] at read'
    exact readText_of_read read'
  · exact readText_of_read (puts'.read_eq free' forced)
  · exact initProject_of_doesExist (puts'.grows.free free') (doesExist_of_read read') loaded' there

/-- A project with the usual settings and an example. -/
def started (settings component : ByteArray) : Disk where
  nodes := .ofList [(["pack.toml"], .file settings), (["website"], .directory),
    (["website", "vue"], .directory),
    (["website", "vue", exampleFile.text], .file component)]
  home := []

theorem resolve_started (a b : ByteArray) (purpose : Purpose) :
    (started a b).resolve purpose (.ofString "pack.toml") =
        .ok (.present ["pack.toml"] (.file a)) ∧
      (started a b).resolve purpose (.ofString "website/vue/HelloWorld.vue") =
        .ok (.present ["website", "vue", exampleFile.text] (.file b)) := by
  cases purpose <;> constructor <;> cbv

/-- An example that was changed is kept, and settings are renewed. -/
theorem initProject_repeats_started :
    let disk := started (Text.toBytes exampleSettings) (Text.toBytes [])
    disk.LinkFree ∧ disk.IsTree ∧
      (initProject false (.ofString "pack.toml") disk).result = .ok () ∧
      (initProject false (.ofString "pack.toml") disk).disk.node?
        ["website".toList, "vue".toList, exampleFile.text] = some (.file (Text.toBytes [])) ∧
      (initProject true (.ofString "pack.toml") disk).result = .ok () ∧
      (initProject true (.ofString "pack.toml") disk).disk.readText (.ofString "pack.toml") =
        .ok exampleSettings := by
  intro disk
  have free : disk.LinkFree := by decide +kernel
  have tree : disk.IsTree := by decide +kernel
  have found := resolve_started (Text.toBytes exampleSettings) (Text.toBytes [])
  have there : disk.doesExist (.ofString "pack.toml") = true := by rw [doesExist, (found _).1]
  have there' : disk.doesExist (.ofString "website/vue/HelloWorld.vue") = true := by
    rw [doesExist, (found _).2]
  have read : disk.read (.ofString "pack.toml") = .ok (Text.toBytes exampleSettings) := by
    rw [Disk.read, (found _).1]
  obtain ⟨settings, parsed⟩ : ∃ settings, Settings.parse? (Settings.baseOf (.ofString "pack.toml"))
      exampleSettings = some settings := Option.isSome_iff_exists.mp (by decide +kernel)
  have loaded := load_eq_ok read (Text.ofBytes?_toBytes _) parsed
  have place : (settings.componentDirectory none).join exampleFile =
      .ofString "website/vue/HelloWorld.vue" := by
    rw [componentDirectory_example parsed]
    decide +kernel
  have kept := initProject_of_doesExist free there loaded (place ▸ there')
  have renewed : (initProject true (.ofString "pack.toml") disk).result = .ok () := by
    have put : putFile disk true (.ofString "pack.toml") exampleSettings = (.ok true, disk) :=
      putFile_overwrite (found _).1 exampleSettings
    have whole := initProject_eq true (.ofString "pack.toml") disk
    rw [put] at whole
    simp only [loaded, ensureDirectory_of_doesExist free (place ▸ there')] at whole
    rw [place, putFile_overwrite (found _).2] at whole
    exact (Prod.mk.inj whole).1
  obtain ⟨⟨_, _, _, _, texts⟩, _⟩ :=
    (initProject_repeats true (.ofString "pack.toml") disk free tree).2 renewed
  exact ⟨free, tree, kept.1,
    (initProject_repeats false (.ofString "pack.toml") disk free tree).1 rfl _ _ rfl, renewed,
    (texts rfl).1⟩

end ComponentPack.Command
