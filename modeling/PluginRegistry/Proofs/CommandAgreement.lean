import PluginRegistry.Command.Run
import PluginRegistry.Proofs.PackageRuns
import PluginRegistry.Proofs.Rendering

/-!
# What the two commands show

One command scans a site itself; the other asks a registry that was started there. The registry has
loaded the site when it is asked (`settle_start`), so both show the same plugins, as text and as
JSON (`commands_agree`), unless the registry cannot be started at all (`registry_unstarted`).
-/

namespace PluginRegistry

namespace Live.World

open Actor

/-- With a directory that answers, a new registry does its initial load in eleven steps and then
waits. -/
theorem runOne_start (site : Site) (channel : Channel) (n : Nat) :
    ∃ r, (((ofSite site).start channel).runOne .none 0 (n + 12)).registries = [r] ∧
      r.gate = Latch.shut.opened ∧
      r.catalogue = Catalogue.empty.loadAll site.installation.directory site.characteristics := by
  simp only [runOne, start, ofSite, Shared.ofSite, Registry.start, Mailbox.empty, Mailbox.send]
  simp [step, registry?, Registry.step, Registry.accept, Registry.perform, Mailbox.receive,
    Mailbox.tryReceive, Outage.first_none, Task.initial, Task.publishAll, Task.afterLoad,
    Category.all]
  rfl

/-- A registry that was started at a site shows what a full load finds there. -/
theorem settle_start (site : Site) (channel : Channel) :
    ∃ r, World.registry? (((ofSite site).start channel).settle .none) 0 = some r ∧
      ∀ c, r.get? c =
        some (scan site.installation.directory site.characteristics c none).plugins := by
  obtain ⟨r, hr, hg, hk⟩ := runOne_start site channel 36
  have settled : (((ofSite site).start channel).settle .none).registries = [r] := hr
  refine ⟨r, by rw [World.registry?, settled]; rfl, fun c => ?_⟩
  rw [Registry.get?, hg, Registry.current, hk]
  cases c <;> rfl

end Live.World

namespace Document.Value

def field? : Value → String → Option Value
  | mapping fs, name => KeyMap.find? name fs
  | _, _ => none

/-- The value at the end of a path of fields. -/
def at? (v : Value) : List String → Option Value
  | [] => some v
  | name :: names => (v.field? name).bind fun w => w.at? names

end Document.Value

namespace Command

open Document

/-- The name of a category comes before that of the next one. -/
theorem ofFields_categories (g : Category → Value) :
    .ofFields (Category.all.map fun c => (c.name, g c)) =
      Value.mapping (Category.all.map fun c => (c.name, g c)) := by
  have ordered : Category.condition.name < Category.setting.name := by decide
  exact ofFields_of_pairwise (List.pairwise_pair.2 ordered)

def shownAt (site : Site) (c : Category) : Roster :=
  .ofMap c (scan site.installation.directory site.characteristics c none).plugins

def diagnosticsAt (site : Site) (c : Category) : List Diagnostic :=
  (scan site.installation.directory site.characteristics c none).diagnostics

def foundAt (site : Site) (c : Category) : Findings := ⟨shownAt site c, diagnosticsAt site c⟩

theorem rosters_eq (site : Site) (channel : Channel) :
    rosters site channel = Category.all.map (shownAt site) := by
  obtain ⟨r, hr, shown⟩ := Live.World.settle_start site channel
  simp only [rosters, hr, Option.bind_some, shown, Option.getD_some]
  rfl

/-- The program prints a text whenever it is asked for the invocation. -/
structure Prints (h : Host) (i : Invocation) (s : String) : Prop where
  run : i.run h = .ok s
  outcome : ∀ args, Invocation.read args = .ok i → Command.run h args = printed s

/-- The program prints a text that denotes the value and no other. -/
def PrintsJson (h : Host) (i : Invocation) (v : Value) : Prop :=
  ∃ s, Prints h i s ∧ ∀ w, Json.Denotes s w ↔ w = v

variable {h : Host} {inventory : String} {config : Option String} {site : Site}
  {settings : Settings} {s : String} {i : Invocation}

theorem ok_of_toOption {ε α : Type} {x : Except ε α} {a : α} (hx : x.toOption = some a) :
    x = .ok a := by
  cases x with
  | error e => cases hx
  | ok b => exact congrArg Except.ok (Option.some.inj hx)

theorem prints_of_run (hi : i.run h = .ok s) : Prints h i s where
  run := hi
  outcome args ha := by
    rw [run, ha]
    dsimp only
    rw [hi]

theorem Prints.json {v : Value} (hs : Prints h i (Json.render v)) (plain : v.Plain) :
    PrintsJson h i v :=
  ⟨_, hs, fun _ => Json.denotes_render_iff plain⟩

theorem prints_scan (loads : Launch.readInventory h.files inventory = .ok site)
    (category : Option Category) (json : Bool) :
    Prints h (.scan inventory category none json)
      (renderScan json ((category.elim Category.all ([·])).map (foundAt site))) := by
  apply prints_of_run
  rw [Invocation.run, runScan, loads]
  rfl

theorem prints_registry (loads : Launch.readInventory h.files inventory = .ok site)
    (configured : config.elim (.ok .default) (Launch.readSettings h.files) = .ok settings)
    (startable : Actor.checkThreadName settings.workerName = .ok ()) (json : Bool) :
    Prints h (.registry inventory config json)
      (renderRegistry json (settings.channel h.process) (Category.all.map (shownAt site))) := by
  have prepared : Launch.prepare h.files inventory config = .ok (settings, site) := by
    cases config with
    | none =>
      cases configured
      rw [Launch.prepare, loads]
      dsimp only [Except.mapError, bind, Except.bind]
      rw [startable]
      rfl
    | some path =>
      rw [Launch.prepare, loads]
      change Launch.readSettings h.files path = _ at configured
      dsimp only
      rw [configured]
      dsimp only [Except.mapError, bind, Except.bind]
      rw [startable]
      rfl
  apply prints_of_run
  rw [Invocation.run, runRegistry, prepared]
  dsimp only [Except.mapError, bind, Except.bind]
  rw [rosters_eq]
  rfl

def scanDocument (site : Site) (categories : List Category) : Value :=
  .mapping (categories.map fun c => (c.name, (foundAt site c).json))

def registryDocument (site : Site) (channel : Channel) : Value :=
  .mapping [
    ("channel",
      .mapping [("action", .text channel.action), ("permission", .text channel.permission)]),
    ("plugins", .mapping (Category.all.map fun c => (c.name, (shownAt site c).json)))]

theorem plain_scanDocument (site : Site) (categories : List Category) :
    (scanDocument site categories).Plain := by
  refine .mapping fun e he => ?_
  obtain ⟨c, -, rfl⟩ := List.mem_map.1 he
  exact plain_findings _

theorem plain_registryDocument (site : Site) (channel : Channel) :
    (registryDocument site channel).Plain := by
  refine .mapping ?_
  simp only [List.forall_mem_cons]
  refine ⟨plain_channelDocument channel, .mapping fun e he => ?_, nofun⟩
  obtain ⟨c, -, rfl⟩ := List.mem_map.1 he
  exact plain_roster _

theorem renderScan_all (site : Site) :
    renderScan true (Category.all.map (foundAt site)) =
      Json.render (scanDocument site Category.all) := by
  rw [scanDocument, ← ofFields_categories]
  rfl

theorem renderScan_one (site : Site) (c : Category) :
    renderScan true [foundAt site c] = Json.render (scanDocument site [c]) := by
  change Json.render (.ofFields [_]) = _
  rw [ofFields_of_pairwise (List.pairwise_singleton _ _)]
  rfl

theorem renderRegistry_all (site : Site) (channel : Channel) :
    renderRegistry true channel (Category.all.map (shownAt site)) =
      Json.render (registryDocument site channel) := by
  rw [registryDocument, ← ofFields_categories]
  rfl

/-- Both commands show the same plugins of a site, in the same words and as the same JSON values,
and the scan of one category shows its part of the full scan. -/
theorem commands_agree (loads : Launch.readInventory h.files inventory = .ok site)
    (configured : config.elim (.ok .default) (Launch.readSettings h.files) = .ok settings)
    (startable : Actor.checkThreadName settings.workerName = .ok ()) :
    let lines := fun c => (shownAt site c).text
    let told := fun c => String.join ((diagnosticsAt site c).map diagnosticLine)
    let channel := settings.channel h.process
    (Prints h (.scan inventory none none false)
        (String.join (Category.all.map fun c => lines c ++ told c)) ∧
      Prints h (.registry inventory config false)
        ("change action: " ++ channel.action ++ "\n" ++ "permission: " ++ channel.permission ++
          "\n" ++ String.join (Category.all.map lines)) ∧
      ∀ c, Prints h (.scan inventory (some c) none false) (lines c ++ told c)) ∧
    ∃ v w, PrintsJson h (.scan inventory none none true) v ∧
      PrintsJson h (.registry inventory config true) w ∧
      ∀ c, ∃ x y, v.at? [c.name, "plugins"] = some x ∧ w.at? ["plugins", c.name] = some x ∧
        v.at? [c.name] = some y ∧
        PrintsJson h (.scan inventory (some c) none true) (.mapping [(c.name, y)]) := by
  intro lines told channel
  have scanned := prints_scan loads none true
  have served := prints_registry loads configured startable true
  rw [Option.elim_none, renderScan_all] at scanned
  rw [renderRegistry_all] at served
  refine ⟨⟨prints_scan loads none false, prints_registry loads configured startable false, ?one⟩,
    scanDocument site Category.all, registryDocument site channel,
    scanned.json (plain_scanDocument _ _), served.json (plain_registryDocument _ _), fun c =>
      ⟨(shownAt site c).json, (foundAt site c).json, ?_, ?_, ?_, ?part⟩⟩
  case one =>
    intro c
    have alone : renderScan false [foundAt site c] = lines c ++ told c := by
      simp [renderScan, scanText, foundAt, Findings.text, lines, told]
    rw [← alone]
    exact prints_scan loads (some c) false
  case part =>
    have part := prints_scan loads (some c) true
    rw [Option.elim_some, List.map_singleton, renderScan_one] at part
    exact part.json (plain_scanDocument _ _)
  all_goals cases c <;> rfl

def quotingInventory : String :=
  "[[package]]\nname='\"'\ncomponent=[" ++
    "\x7bid='E',kind='activity',actions=['plugreg.intent.action.EDIT_SETTING']\x7d," ++
    "\x7bid='F',kind='service',actions=['plugreg.intent.action.FIRE_SETTING']\x7d]"

def Host.quoting : Host where
  files path :=
    if path = "i" then .ok quotingInventory
    else if path = "c" then .ok "worker_thread_name=''"
    else .error .missing
  process := "1"

theorem commands_agree_quoting :
    let h := Host.quoting
    ∃ site settings, Launch.readInventory h.files "i" = .ok site ∧
      Launch.readSettings h.files "c" = .ok settings ∧
      Actor.checkThreadName settings.workerName = .ok () ∧
      (shownAt site .setting).text = "setting: 1 plugin(s)\n  \":E v1 -> service F\n" ∧
      ∃ v w x, PrintsJson h (.scan "i" none none true) v ∧
        PrintsJson h (.registry "i" (some "c") true) w ∧
        v.at? ["setting", "plugins"] = some x ∧ w.at? ["plugins", "setting"] = some x := by
  intro h
  have loads : (Launch.readInventory h.files "i").toOption.any (fun site =>
      (shownAt site .setting).text = "setting: 1 plugin(s)\n  \":E v1 -> service F\n") = true := by
    decide +kernel
  have configured : (Launch.readSettings h.files "c").toOption =
      some { Settings.default with workerName := "" } := by
    decide +kernel
  obtain ⟨site, hsite, shown⟩ := (Option.any_eq_true ..).1 loads
  have startable : Actor.checkThreadName "" = .ok () :=
    Actor.checkThreadName_eq_ok_iff.2 (by decide)
  have given : (some "c").elim (.ok .default) (Launch.readSettings h.files) =
      .ok { Settings.default with workerName := "" } :=
    ok_of_toOption configured
  obtain ⟨-, v, w, hv, hw, parts⟩ := commands_agree (ok_of_toOption hsite) given startable
  obtain ⟨x, -, hx, hx', -⟩ := parts .setting
  exact ⟨site, _, ok_of_toOption hsite, ok_of_toOption configured, startable,
    of_decide_eq_true shown, v, w, x, hv, hw, hx, hx'⟩

/-- A worker that cannot be started, because its name has a NUL in it. -/
def Host.unstartable : Host where
  files path :=
    if path = "i" then .ok ""
    else if path = "c" then .ok "worker_thread_name = \"a\\u0000\""
    else .error .missing
  process := "1"

/-- Settings that load need not let a registry start. Then there is nothing to compare: the scan
prints what it finds, and the registry prints nothing. -/
theorem registry_unstarted :
    let h := Host.unstartable
    (∃ site, Launch.readInventory h.files "i" = .ok site) ∧
      (∃ settings, Launch.readSettings h.files "c" = .ok settings) ∧
      run h ["scan", "--inventory", "i"] =
        ⟨0, "condition: 0 plugin(s)\nsetting: 0 plugin(s)\n", ""⟩ ∧
      (run h ["registry", "--inventory", "i", "--config", "c"]).code = 101 ∧
      (run h ["registry", "--inventory", "i", "--config", "c"]).out = "" ∧
      ∀ json s, ¬Prints h (.registry "i" (some "c") json) s := by
  intro h
  have loads : (Launch.readInventory h.files "i").toOption.isSome = true := by decide +kernel
  have configured : (Launch.readSettings h.files "c").toOption.isSome = true := by decide +kernel
  obtain ⟨site, hsite⟩ := Option.isSome_iff_exists.1 loads
  obtain ⟨settings, hsettings⟩ := Option.isSome_iff_exists.1 configured
  have fails : ∀ json, ((Invocation.registry "i" (some "c") json).run h).toOption = none := by
    decide +kernel
  refine ⟨⟨site, ok_of_toOption hsite⟩, ⟨settings, ok_of_toOption hsettings⟩, by decide +kernel,
    by decide +kernel, by decide +kernel, fun json s hs => ?_⟩
  have none := fails json
  rw [hs.run] at none
  cases none

end Command

end PluginRegistry
